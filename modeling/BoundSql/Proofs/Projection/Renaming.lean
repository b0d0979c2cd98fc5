import BoundSql.Proofs.Expr.Renaming
import BoundSql.Proofs.Projection.Alike
import BoundSql.Proofs.Projection.Placeholders

set_option autoImplicit false

/-!
# Projections with renamed parameters

A dynamic container shows a conditional by the rendered path of the member to which it falls back,
from the fifth character on, and that is the one place where the name of a parameter can get into an
item.  Renamed projections are refused together and bind the same values, and where these paths are
the same they have the same items (`collect_renamed`).
-/

namespace BoundSql

/-! ## Members of parameters -/

namespace Expr

/-- The parameter off which a chain of members is read. -/
def row? : Expr → Option Parameter
  | .param p => some p
  | .member target _ => target.row?
  | _ => none

/-- The display of a member of a parameter is the name of the parameter, and every name on the way
behind a dot. -/
theorem display_of_row? {p : Parameter} : ∀ {e : Expr}, e.row? = some p →
    e.display.toList = p.name.toList ++ e.path.flatMap fun name => '.' :: name.toList
  | .param q, h => by
      obtain rfl := Option.some.inj h
      simp [display, path, preorder, asMember?]
  | .member target ref, h => by
      have htarget := display_of_row? (show target.row? = some p from h)
      rw [display, path_member]
      simp [htarget]

end Expr

namespace Projection

variable {options : Options} {rowType : TypeRef} {same : Prop} {e f : Expr}

/-! ## Fallbacks -/

/-- The member to which a conditional falls back. -/
def conditionalMember? : Expr → Option Expr
  | .cond _ _ ifFalse => if ifFalse.asMember?.isSome then some ifFalse else none
  | _ => none

/-- The member to which the value of a container falls back, if it is a conditional. -/
def fallback? (options : Options) : Expr → Option Expr
  | .record type bindings =>
    if options.isContainer type then
      match singleBinding bindings "Value" with
      | .ok value => conditionalMember? value
      | .error _ => none
    else none
  | _ => none

/-- The members to which the containers in a tree fall back, the outermost first. -/
def fallbacks (options : Options) (e : Expr) : List Expr :=
  e.preorder.filterMap (fallback? options)

/-- The containers in the same places of two trees show the same rendered paths. -/
def SamePaths (options : Options) (e f : Expr) : Prop :=
  ∀ a b, (a, b) ∈ e.preorder.zip f.preorder →
    (fallback? options a).map renderedPath = (fallback? options b).map renderedPath

/-- The pair of a container shows the rendered path of a fallback, or else a column of the row. -/
theorem pairItem_eq (options : Options) (name : String) (value : Expr) :
    pairItem options name value =
      match (conditionalMember? value).map renderedPath with
      | some path => ⟨Text.replaceDots options.dotSeparator path, .column path⟩
      | none => .identity ((value.asMember?.map (·.name)).getD name) := by
  cases value with
  | cond test ifTrue ifFalse =>
      simp only [pairItem, conditionalMember?]
      split <;> rfl
  | _ => rfl

theorem conditionalMember?_rel (h : e.Renamed f) :
    Option.Rel Expr.Renamed (conditionalMember? e) (conditionalMember? f) := by
  cases h with
  | cond _ _ renamedFalse =>
      simp only [conditionalMember?, renamedFalse.asMember?_eq]
      split
      · exact .some renamedFalse
      · exact .none
  | const _ | param _ _ _ | member _ _ | staticMember _ | binary _ _ _ | call _ _ _ _
  | lambda _ _ _ _ _ _ | record _ _ _ _ | construct _ _ _ _ => exact .none

theorem singleBinding_renamed {bindings others : List (MemberRef × Expr)}
    (h : List.Forall₂ (fun a b => a.1 = b.1 ∧ a.2.Renamed b.2) bindings others) (name : String) :
    Agree Expr.Renamed (singleBinding bindings name) (singleBinding others name) := by
  have hfilter : List.Forall₂ (fun a b => a.1 = b.1 ∧ a.2.Renamed b.2)
      (bindings.filter (·.1.name == name)) (others.filter (·.1.name == name)) :=
    List.rel_filter (fun a b hab => by simp [hab.1]) h
  unfold singleBinding
  revert hfilter
  generalize bindings.filter (·.1.name == name) = found
  generalize others.filter (·.1.name == name) = found'
  rintro (_ | ⟨hbinding, _ | _⟩)
  · exact .error _ _
  · exact .ok hbinding.2
  · exact .error _ _

theorem forall₂_bindings {bindings others : List (MemberRef × Expr)}
    (length : bindings.length = others.length)
    (refs : ∀ a b, (a, b) ∈ bindings.zip others → a.1 = b.1)
    (renamed : ∀ a b, (a, b) ∈ bindings.zip others → a.2.Renamed b.2) :
    List.Forall₂ (fun a b => a.1 = b.1 ∧ a.2.Renamed b.2) bindings others :=
  Expr.forall₂_of_zip length fun a b hmem => ⟨refs a b hmem, renamed a b hmem⟩

theorem fallback?_rel (h : e.Renamed f) :
    Option.Rel Expr.Renamed (fallback? options e) (fallback? options f) := by
  cases h with
  | @record bindings others type length refs renamed =>
      have hvalue := singleBinding_renamed (forall₂_bindings length refs renamed) "Value"
      simp only [fallback?]
      cases options.isContainer type with
      | false => exact .none
      | true =>
          revert hvalue
          generalize singleBinding bindings "Value" = value
          generalize singleBinding others "Value" = value'
          rintro (hrenamed | _)
          · exact conditionalMember?_rel hrenamed
          · exact .none
  | const _ | param _ _ _ | member _ _ | staticMember _ | binary _ _ _ | call _ _ _ _
  | lambda _ _ _ _ _ _ | construct _ _ _ _ | cond _ _ _ => exact .none

theorem forall₂_fallbacks (h : e.Renamed f) :
    List.Forall₂ Expr.Renamed (fallbacks options e) (fallbacks options f) :=
  List.rel_filterMap (fun _ _ hpart => fallback?_rel hpart) h.forall₂_preorder

/-- Where there are items for the same places of two lists and the items are the same, the items for
each place are. -/
theorem forall₂_of_filterMap_eq {α β : Type} {g : α → Option β} {xs ys : List α}
    (h : List.Forall₂ (fun x y => (g x).isSome = (g y).isSome) xs ys)
    (heq : xs.filterMap g = ys.filterMap g) : List.Forall₂ (fun x y => g x = g y) xs ys := by
  induction h with
  | nil => exact .nil
  | @cons x y xs ys hxy _ ih =>
      rw [List.filterMap_cons, List.filterMap_cons] at heq
      cases hx : g x with
      | none =>
          have hy : g y = none := by simpa [hx] using hxy
          rw [hx, hy] at heq
          exact .cons (hx.trans hy.symm) (ih heq)
      | some b =>
          obtain ⟨b', hy⟩ : ∃ b', g y = some b' := by simpa [hx, Option.isSome_iff_exists] using hxy
          rw [hx, hy] at heq
          obtain ⟨rfl, hrest⟩ := List.cons.inj heq
          exact .cons (hx.trans hy.symm) (ih hrest)

theorem samePaths_of_map_fallbacks_eq (h : e.Renamed f)
    (heq : (fallbacks options e).map renderedPath = (fallbacks options f).map renderedPath) :
    SamePaths options e f := by
  have hsome : List.Forall₂ (fun a b => ((fallback? options a).map renderedPath).isSome =
      ((fallback? options b).map renderedPath).isSome) e.preorder f.preorder := by
    refine h.forall₂_preorder.imp fun a b hpart => ?_
    have hrel : Option.Rel Expr.Renamed (fallback? options a) (fallback? options b) :=
      fallback?_rel hpart
    rcases eq_none_or_exists_of_rel hrel with ⟨ha, hb⟩ | ⟨m, n, ha, hb, -⟩
    · rw [ha, hb]
    · rw [ha, hb]
      rfl
  rw [fallbacks, fallbacks, List.map_filterMap, List.map_filterMap] at heq
  exact fun a b hmem => (List.forall₂_iff_zip.mp (forall₂_of_filterMap_eq hsome heq)).2 hmem

theorem renderedPath_eq_of_row? {p q : Parameter} (h : e.Renamed f) (he : e.row? = some p)
    (hf : f.row? = some q) (hp : p.name.length = 3) (hq : q.name.length = 3) :
    renderedPath e = renderedPath f := by
  have hlength (name : String) (hname : name.length = 3) (rest : List Char) :
      (name.toList ++ rest).drop rowMarkLength = rest.drop 1 := by
    have hlist : name.toList.length = 3 := by rwa [String.length_toList]
    rw [List.drop_append, List.drop_eq_nil_of_le (by simp [rowMarkLength, hlist]), hlist]
    rfl
  unfold renderedPath
  rw [Expr.display_of_row? he, Expr.display_of_row? hf, hlength _ hp, hlength _ hq, h.path_eq]

/-- Members of parameters have the same rendered paths if the names of the parameters have three
characters, as the prefix that is cut off expects. -/
theorem map_fallbacks_eq_of_row? (h : e.Renamed f)
    (he : ∀ m ∈ fallbacks options e, ∃ p, m.row? = some p ∧ p.name.length = 3)
    (hf : ∀ m ∈ fallbacks options f, ∃ p, m.row? = some p ∧ p.name.length = 3) :
    (fallbacks options e).map renderedPath = (fallbacks options f).map renderedPath := by
  rw [← List.forall₂_eq_eq_eq, List.forall₂_map_left_iff, List.forall₂_map_right_iff]
  have hfallbacks : List.Forall₂ Expr.Renamed (fallbacks options e) (fallbacks options f) :=
    forall₂_fallbacks h
  obtain ⟨length, hrenamed⟩ := List.forall₂_iff_zip.mp hfallbacks
  refine Expr.forall₂_of_zip length fun m n hmem => ?_
  obtain ⟨p, hm, hp⟩ := he m (List.of_mem_zip hmem).1
  obtain ⟨q, hn, hq⟩ := hf n (List.of_mem_zip hmem).2
  exact renderedPath_eq_of_row? (hrenamed hmem) hm hn hp hq

theorem zip_subset_zip_flatMap {α β : Type} {g : α → List β} {xs ys : List α} {x y : α}
    (h : List.Forall₂ (fun x y => (g x).length = (g y).length) xs ys) (hmem : (x, y) ∈ xs.zip ys) :
    (g x).zip (g y) ⊆ (xs.flatMap g).zip (ys.flatMap g) := by
  induction h with
  | nil => simp at hmem
  | cons hlength _ ih =>
      rw [List.flatMap_cons, List.flatMap_cons, List.zip_append hlength]
      rcases List.mem_cons.mp hmem with heq | hrest
      · obtain ⟨rfl, rfl⟩ := Prod.mk.inj heq
        exact List.subset_append_left _ _
      · exact List.Subset.trans (ih hrest) (List.subset_append_right _ _)

/-- Parts in the same place show the same rendered paths. -/
theorem SamePaths.of_child {a b : Expr} (hsame : SamePaths options e f) (h : e.Renamed f)
    (hchild : (a, b) ∈ e.children.zip f.children) : SamePaths options a b := by
  intro x y hmem
  refine hsame x y ?_
  rw [Expr.preorder_eq e, Expr.preorder_eq f]
  exact List.mem_cons_of_mem _ (zip_subset_zip_flatMap
    (h.forall₂_children.imp fun _ _ hparts => hparts.forall₂_preorder.length_eq) hchild hmem)

/-! ## Collectors -/

namespace Collector

theorem error_andThen (c d : Collector) (taken : List String) :
    ((c.andThen d) taken).error.isSome =
      ((c taken).error.isSome || (d (taken ++ (c taken).items.map (·.label))).error.isSome) := by
  unfold andThen
  cases h : (c taken).error <;> simp [h]

theorem items_andThen (c d : Collector) (taken : List String) :
    ((c.andThen d) taken).items = (c taken).items ++
      if (c taken).error.isSome then []
      else (d (taken ++ (c taken).items.map (·.label))).items := by
  unfold andThen
  cases h : (c taken).error <;> simp [h]

/-- The collectors stop together and bind the same values, whichever labels are taken for each.
Where no label is taken, both have an item or none has.  They have the same items if `same`. -/
structure Renamed (same : Prop) (c d : Collector) : Prop where
  stops : ∀ taken taken', (c taken).error.isSome = (d taken').error.isSome
  values : ∀ taken taken', values (c taken).items = values (d taken').items
  empty : (c []).items = [] ↔ (d []).items = []
  items : same → ∀ taken, (c taken).items = (d taken).items

namespace Renamed

theorem done : Renamed same Collector.done Collector.done :=
  ⟨fun _ _ => rfl, fun _ _ => rfl, .rfl, fun _ _ => rfl⟩

theorem fail (error error' : CompileError) :
    Renamed same (Collector.fail error) (Collector.fail error') :=
  ⟨fun _ _ => rfl, fun _ _ => rfl, .rfl, fun _ _ => rfl⟩

theorem item (i : Item) : Renamed same (Collector.item i) (Collector.item i) :=
  ⟨fun _ _ => rfl, fun _ _ => rfl, .rfl, fun _ _ => rfl⟩

/-- A column under its own name binds nothing, whether or not its label is taken. -/
theorem newItem_identity (name : String) :
    Renamed same (Collector.newItem (.identity name)) (Collector.newItem (.identity name)) := by
  refine ⟨fun _ _ => rfl, fun taken taken' => ?_, .rfl, fun _ _ => rfl⟩
  simp only [Collector.newItem]
  split <;> split <;> rfl

theorem ofResult {α : Type} {R : α → α → Prop} {x y : Except CompileError α}
    {next next' : α → Collector} (h : Agree R x y)
    (hnext : ∀ a b, R a b → Renamed same (next a) (next' b)) :
    Renamed same (Collector.ofResult x next) (Collector.ofResult y next') := by
  cases h with
  | ok related => exact hnext _ _ related
  | error error error' => exact fail error error'

theorem andThen {c c' d d' : Collector} (hc : Renamed same c c') (hd : Renamed same d d') :
    Renamed same (c.andThen d) (c'.andThen d') where
  stops taken taken' := by
    rw [error_andThen, error_andThen, hc.stops taken taken', hd.stops _ _]
  values taken taken' := by
    rw [items_andThen, items_andThen, Projection.values, List.filterMap_append, Projection.values,
      List.filterMap_append, hc.stops taken taken']
    refine congrArg₂ (· ++ ·) (hc.values taken taken') ?_
    split
    · rfl
    · exact hd.values _ _
  empty := by
    rw [items_andThen, items_andThen, List.append_eq_nil_iff, List.append_eq_nil_iff,
      hc.stops [] []]
    refine (and_congr_right fun hnil => ?_).trans (and_congr_left' hc.empty)
    rw [hnil, hc.empty.mp hnil]
    split
    · exact .rfl
    · exact hd.empty
  items hsame taken := by
    rw [items_andThen, items_andThen, hc.stops taken taken, hc.items hsame taken,
      hd.items hsame _]

theorem all {cs ds : List Collector} (h : List.Forall₂ (Renamed same) cs ds) :
    Renamed same (Collector.all cs) (Collector.all ds) := by
  induction h with
  | nil => exact done
  | cons hc _ ih => exact hc.andThen ih

/-- Where one collector ends with its items, the other ends too. -/
theorem exists_of_ok {c d : Collector} (h : Renamed same c d) {items : List Item}
    (hc : c [] = ⟨items, none⟩) :
    ∃ items', d [] = ⟨items', none⟩ ∧ Projection.values items = Projection.values items' ∧
      (items = [] ↔ items' = []) ∧ (same → items = items') := by
  have hstops := h.stops [] []
  have hvalues := h.values [] []
  have hempty := h.empty
  have hitems (hsame : same) := h.items hsame []
  rw [hc] at hstops hvalues hempty hitems
  have hends : (d []).error = none := by simpa using hstops.symm
  exact ⟨(d []).items, congrArg (Collected.mk _) hends, hvalues, hempty, hitems⟩

end Renamed

end Collector

/-! ## Projections -/

theorem source_eq_of_renamed (h : e.Renamed f) : source rowType e = source rowType f := by
  unfold source source.ofLiteral
  rw [h.asMember?_eq, h.isRowMember_eq, h.resolve_eq]

theorem collectField_renamed (label : String) (h : e.Renamed f) :
    Collector.Renamed same (collectField rowType label e) (collectField rowType label f) := by
  unfold collectField
  rw [source_eq_of_renamed h]
  cases source rowType f with
  | ok shown => exact .item _
  | error error => exact .fail error error

theorem collectPublicName_renamed (h : e.Renamed f) :
    Collector.Renamed same (collectPublicName e) (collectPublicName f) := by
  unfold collectPublicName
  rw [h.resolve_eq]
  cases f.resolve with
  | error error => exact .fail error error
  | ok value? =>
      simp only [Collector.ofResult]
      split
      · split
        · exact .done
        · exact .newItem_identity _
      · exact .done

theorem publicName?_eq_of_renamed (h : e.Renamed f) : publicName? e = publicName? f := by
  cases h <;> rfl

/-- A pair binds nothing, and is an item where no label is taken. -/
theorem pair_renamed (name : String) (h : e.Renamed f)
    (hpath : same →
      (conditionalMember? e).map renderedPath = (conditionalMember? f).map renderedPath) :
    Collector.Renamed same
      (fun taken => ⟨if taken.contains name then [] else [pairItem options name e], none⟩)
      (fun taken => ⟨if taken.contains name then [] else [pairItem options name f], none⟩) where
  stops _ _ := rfl
  values taken taken' := by
    have hnone (taken : List String) (value : Expr) :
        values (if taken.contains name then [] else [pairItem options name value]) = [] := by
      split <;> simp [values, value?_pairItem]
    rw [hnone, hnone]
  empty := by simp
  items hsame taken := by
    rw [pairItem_eq, pairItem_eq, hpath hsame, h.asMember?_eq]

theorem collectPair_renamed {bindings others : List (MemberRef × Expr)}
    (hname : Agree Expr.Renamed (singleBinding bindings "Name") (singleBinding others "Name"))
    (hvalue : Agree (fun a b => a.Renamed b ∧ (same →
        (conditionalMember? a).map renderedPath = (conditionalMember? b).map renderedPath))
      (singleBinding bindings "Value") (singleBinding others "Value")) :
    Collector.Renamed same (collectPair options bindings) (collectPair options others) := by
  refine .ofResult hname fun name name' hname => .ofResult hvalue fun value value' hvalue => ?_
  rw [publicName?_eq_of_renamed hname]
  cases publicName? name' with
  | none => exact .done
  | some name => exact pair_renamed name hvalue.1 hvalue.2

theorem collectContainer_renamed (h : e.Renamed f)
    (hpath : same →
      (fallback? options e).map renderedPath = (fallback? options f).map renderedPath) :
    Collector.Renamed same (collectContainer options e) (collectContainer options f) := by
  cases h with
  | @record bindings others type length refs renamed =>
      have hbindings := forall₂_bindings length refs renamed
      simp only [fallback?] at hpath
      simp only [collectContainer]
      cases hcontainer : options.isContainer type with
      | false => exact .done
      | true =>
          simp only [hcontainer, if_true] at hpath
          refine collectPair_renamed (singleBinding_renamed hbindings "Name") ?_
          have hvalue := singleBinding_renamed hbindings "Value"
          revert hpath hvalue
          generalize singleBinding bindings "Value" = value
          generalize singleBinding others "Value" = value'
          rintro hpath (hrenamed | _)
          · exact .ok ⟨hrenamed, hpath⟩
          · exact .error _ _
  | const _ | param _ _ _ | member _ _ | staticMember _ | binary _ _ _ | call _ _ _ _
  | lambda _ _ _ _ _ _ | construct _ _ _ _ | cond _ _ _ => exact .done

theorem collectDynamic_renamed (h : e.Renamed f) (hpaths : same → SamePaths options e f) :
    Collector.Renamed same (collectDynamic options e) (collectDynamic options f) := by
  unfold collectDynamic
  refine .all ?_
  rw [List.forall₂_map_left_iff, List.forall₂_map_right_iff]
  obtain ⟨length, hparts⟩ := List.forall₂_iff_zip.mp h.forall₂_preorder
  exact Expr.forall₂_of_zip length fun a b hmem =>
    collectContainer_renamed (hparts hmem) fun hsame => hpaths hsame a b hmem

theorem collectBinding_renamed {a b : MemberRef × Expr} (href : a.1 = b.1) (h : a.2.Renamed b.2)
    (hcollect :
      Collector.Renamed same (collect options rowType a.2) (collect options rowType b.2)) :
    Collector.Renamed same (collectBinding options rowType a)
      (collectBinding options rowType b) := by
  unfold collectBinding
  rw [href]
  split
  · exact hcollect
  · split
    · exact collectPublicName_renamed h
    · exact collectField_renamed _ h

theorem collectFields_renamed {names : List String} {args others : List Expr}
    (h : List.Forall₂ Expr.Renamed args others) :
    List.Forall₂ (Collector.Renamed same)
      ((names.zip args).map fun field => collectField rowType field.1 field.2)
      ((names.zip others).map fun field => collectField rowType field.1 field.2) := by
  induction h generalizing names with
  | nil => simp
  | cons harg _ ih =>
      cases names with
      | nil => exact .nil
      | cons name names => exact .cons (collectField_renamed name harg) ih

/-- Renamed projections stop together and bind the same values, and have the same items where their
containers show the same rendered paths. -/
theorem collect_renamed (rowType : TypeRef) (h : e.Renamed f) :
    (same → SamePaths options e f) →
      Collector.Renamed same (collect options rowType e) (collect options rowType f) := by
  induction h with
  | const _ | param _ _ _ | staticMember _ => exact fun _ => .done
  | @member target other ref renamed ih =>
      intro hpaths
      exact ih fun hsame => (hpaths hsame).of_child (.member ref renamed) (by simp [Expr.children])
  | binary op renamedLeft renamedRight ihLeft ihRight =>
      intro hpaths
      have hwhole := Expr.Renamed.binary op renamedLeft renamedRight
      refine .andThen (ihLeft fun hsame => (hpaths hsame).of_child hwhole ?_)
        (ihRight fun hsame => (hpaths hsame).of_child hwhole ?_)
      all_goals simp [Expr.children]
  | call declaring method length renamed ih =>
      intro hpaths
      simp only [collect, collectAll_eq]
      refine .all ?_
      rw [List.forall₂_map_left_iff, List.forall₂_map_right_iff]
      exact Expr.forall₂_of_zip length fun a b hmem => ih a b hmem fun hsame =>
        (hpaths hsame).of_child (.call declaring method length renamed) hmem
  | lambda name name' type returns shaper renamed ih =>
      intro hpaths
      have hwhole := Expr.Renamed.lambda name name' type returns shaper renamed
      exact ih fun hsame => (hpaths hsame).of_child hwhole (by simp [Expr.children])
  | @construct args others type paramNames length renamed _ =>
      intro _
      have hargs := Expr.forall₂_of_zip length renamed
      have hempty : args.isEmpty = others.isEmpty := by cases hargs <;> rfl
      simp only [collect, hempty, length]
      split
      · exact .done
      · split
        · exact .all (collectFields_renamed hargs)
        · exact .fail _ _
  | @record bindings others type length refs renamed ih =>
      intro hpaths
      have hrecord : (Expr.record type bindings).Renamed (.record type others) :=
        .record type length refs renamed
      simp only [collect]
      split
      · exact collectDynamic_renamed hrecord hpaths
      · rw [collectBindings_eq, collectBindings_eq]
        refine .all ?_
        rw [List.forall₂_map_left_iff, List.forall₂_map_right_iff]
        refine Expr.forall₂_of_zip length fun a b hmem =>
          collectBinding_renamed (refs a b hmem) (renamed a b hmem) (ih a b hmem fun hsame =>
            (hpaths hsame).of_child hrecord ?_)
        rw [Expr.children, Expr.children, List.zip_map]
        exact List.mem_map.mpr ⟨(a, b), hmem, rfl⟩
  | cond renamedTest renamedTrue renamedFalse ihTest ihTrue ihFalse =>
      intro hpaths
      have hwhole := Expr.Renamed.cond renamedTest renamedTrue renamedFalse
      refine .andThen (ihTest fun hsame => (hpaths hsame).of_child hwhole ?_)
        (.andThen (ihTrue fun hsame => (hpaths hsame).of_child hwhole ?_)
          (ihFalse fun hsame => (hpaths hsame).of_child hwhole ?_))
      all_goals simp [Expr.children]

end Projection

end BoundSql
