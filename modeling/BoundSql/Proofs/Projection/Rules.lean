import BoundSql.Expr.Build
import BoundSql.Projection.Collect
import BoundSql.Proofs.Expr.Parts
import BoundSql.Proofs.Outcome

set_option autoImplicit false

/-!
# The rules of items

`Shows options rowType e item` says by rules, one for each place that an item can come from, that
the item is taken from a part of the expression `e`.  The main statement is `shows_of_mem_collect`:
whatever is collected from the body of a projection, whether or not the collection stops at an
error, is taken from a part of it.
-/

namespace BoundSql.Projection

/-! ## Sources -/

/-- A field shows a column of the row, a literal, or null. -/
theorem source_eq_ok_iff {rowType : TypeRef} {e : Expr} {shown : Source} :
    source rowType e = .ok shown ↔
      (∃ ref, e.isRowMember rowType = true ∧ e.asMember? = some ref ∧ shown = .column ref.name) ∨
      (e.isRowMember rowType = false ∧
        ((∃ v, e.resolve = .ok (some v) ∧ shown = .bound v) ∨
          (e.resolve = .ok none ∧ shown = .null))) := by
  have hliteral : source.ofLiteral e = .ok shown ↔
      (∃ v, e.resolve = .ok (some v) ∧ shown = .bound v) ∨
        (e.resolve = .ok none ∧ shown = .null) := by
    unfold source.ofLiteral
    rw [map_eq_ok_iff]
    constructor
    · rintro ⟨value?, hresolve, rfl⟩
      cases value? with
      | none => exact .inr ⟨hresolve, rfl⟩
      | some v => exact .inl ⟨v, hresolve, rfl⟩
    · rintro (⟨v, hresolve, rfl⟩ | ⟨hresolve, rfl⟩)
      · exact ⟨some v, hresolve, rfl⟩
      · exact ⟨none, hresolve, rfl⟩
  unfold source
  cases hmember : e.asMember? with
  | none =>
      have hrow := Expr.isRowMember_eq_false_of_asMember?_eq_none rowType hmember
      simp [hliteral, hrow]
  | some ref =>
      cases hrow : e.isRowMember rowType with
      | false => simp [hliteral]
      | true => simp [eq_comm]

/-! ## Items -/

/-- Where an item can come from. -/
inductive Shows (options : Options) (rowType : TypeRef) (e : Expr) : Item → Prop where
  /-- An argument of a constructor under the name of its parameter. -/
  | argument {type : TypeRef} {paramNames : List String} {args : List Expr} {label : String}
      {arg : Expr} {shown : Source} (part : .construct type paramNames args ∈ e.preorder)
      (field : (label, arg) ∈ paramNames.zip args) (sourced : source rowType arg = .ok shown) :
      Shows options rowType e ⟨label, shown⟩
  /-- A plain member of a record. -/
  | binding {type : TypeRef} {bindings : List (MemberRef × Expr)} {ref : MemberRef} {arg : Expr}
      {shown : Source} (part : .record type bindings ∈ e.preorder) (bound : (ref, arg) ∈ bindings)
      (sourced : source rowType arg = .ok shown) : Shows options rowType e ⟨ref.name, shown⟩
  /-- The column that a plain member of a container names. -/
  | publicName {type : TypeRef} {bindings : List (MemberRef × Expr)} {ref : MemberRef} {arg : Expr}
      {name : String} (part : .record type bindings ∈ e.preorder) (bound : (ref, arg) ∈ bindings)
      (container : options.isContainer ref.declaring = true)
      (resolved : arg.resolve = .ok (some (.text name))) :
      Shows options rowType e (.identity name)
  /-- The pair of a container. -/
  | pair {type : TypeRef} {bindings : List (MemberRef × Expr)} {named value : Expr} {name : String}
      (part : .record type bindings ∈ e.preorder) (container : options.isContainer type = true)
      (nameBound : singleBinding bindings "Name" = .ok named)
      (valueBound : singleBinding bindings "Value" = .ok value)
      (labelled : publicName? named = some name) :
      Shows options rowType e (pairItem options name value)

variable {options : Options} {rowType : TypeRef}

/-- What a part shows, the whole shows. -/
theorem Shows.of_subset {e part : Expr} {item : Item} (hsub : part.preorder ⊆ e.preorder)
    (h : Shows options rowType part item) : Shows options rowType e item := by
  cases h with
  | argument part field sourced => exact .argument (hsub part) field sourced
  | binding part bound sourced => exact .binding (hsub part) bound sourced
  | publicName part bound container resolved =>
      exact .publicName (hsub part) bound container resolved
  | pair part container nameBound valueBound labelled =>
      exact .pair (hsub part) container nameBound valueBound labelled

/-- A collector takes all its items from an expression. -/
def TakesFrom (options : Options) (rowType : TypeRef) (e : Expr) (c : Collector) : Prop :=
  ∀ taken, ∀ item ∈ (c taken).items, Shows options rowType e item

namespace TakesFrom

variable {e part : Expr} {c c' : Collector}

theorem of_subset (hsub : part.preorder ⊆ e.preorder) (h : TakesFrom options rowType part c) :
    TakesFrom options rowType e c :=
  fun taken item hitem => (h taken item hitem).of_subset hsub

theorem of_child (hchild : part ∈ e.children) (h : TakesFrom options rowType part c) :
    TakesFrom options rowType e c :=
  h.of_subset (Expr.preorder_subset_of_child hchild)

theorem done : TakesFrom options rowType e Collector.done := by
  intro taken item hitem
  simp [Collector.done] at hitem

theorem fail (error : CompileError) : TakesFrom options rowType e (Collector.fail error) := by
  intro taken item hitem
  simp [Collector.fail] at hitem

theorem item {i : Item} (h : Shows options rowType e i) :
    TakesFrom options rowType e (Collector.item i) := by
  intro taken item hitem
  obtain rfl := List.mem_singleton.mp hitem
  exact h

theorem newItem {i : Item} (h : Shows options rowType e i) :
    TakesFrom options rowType e (Collector.newItem i) := by
  intro taken item hitem
  unfold Collector.newItem at hitem
  split at hitem
  · simp at hitem
  · obtain rfl := List.mem_singleton.mp hitem
    exact h

theorem ofResult {α : Type} {result : Except CompileError α} {next : α → Collector}
    (h : ∀ a, result = .ok a → TakesFrom options rowType e (next a)) :
    TakesFrom options rowType e (Collector.ofResult result next) := by
  unfold Collector.ofResult
  split
  · exact h _ rfl
  · exact fail _

theorem andThen (h : TakesFrom options rowType e c) (h' : TakesFrom options rowType e c') :
    TakesFrom options rowType e (c.andThen c') := by
  intro taken item hitem
  simp only [Collector.andThen] at hitem
  split at hitem
  · exact h taken item hitem
  · rcases List.mem_append.mp hitem with hitem | hitem
    · exact h taken item hitem
    · exact h' _ item hitem

theorem all {cs : List Collector} (h : ∀ c ∈ cs, TakesFrom options rowType e c) :
    TakesFrom options rowType e (Collector.all cs) := by
  induction cs with
  | nil => exact done
  | cons c cs ih =>
      exact andThen (h c List.mem_cons_self) (ih fun c' hc' => h c' (List.mem_cons_of_mem c hc'))

end TakesFrom

/-! ## Fields and containers -/

theorem takesFrom_collectField {e arg : Expr} {label : String}
    (h : ∀ shown, source rowType arg = .ok shown → Shows options rowType e ⟨label, shown⟩) :
    TakesFrom options rowType e (collectField rowType label arg) :=
  .ofResult fun shown hshown => .item (h shown hshown)

theorem takesFrom_collectPublicName {e arg : Expr}
    (h : ∀ name, arg.resolve = .ok (some (.text name)) →
      Shows options rowType e (.identity name)) :
    TakesFrom options rowType e (collectPublicName arg) := by
  refine .ofResult fun value? hvalue => ?_
  split
  · rename_i name
    split
    · exact .done
    · exact .newItem (h name hvalue)
  · exact .done

theorem mem_of_singleBinding {bindings : List (MemberRef × Expr)} {name : String} {value : Expr}
    (h : singleBinding bindings name = .ok value) : ∃ ref, (ref, value) ∈ bindings := by
  unfold singleBinding at h
  split at h
  · simp at h
  · rename_i binding hfilter
    obtain rfl := Except.ok.inj h
    have hmem : binding ∈ bindings.filter (·.1.name == name) := by
      rw [hfilter]
      exact List.mem_cons_self
    exact ⟨binding.1, (List.mem_filter.mp hmem).1⟩
  · simp at h

theorem takesFrom_collectContainer {e part : Expr} (hpart : part ∈ e.preorder) :
    TakesFrom options rowType e (collectContainer options part) := by
  unfold collectContainer
  split
  · rename_i type bindings
    split
    · rename_i container
      refine .ofResult fun named hnamed => .ofResult fun value hvalue => ?_
      split
      · exact .done
      · rename_i name hname
        intro taken item hitem
        dsimp only at hitem
        split at hitem
        · simp at hitem
        · obtain rfl := List.mem_singleton.mp hitem
          exact .pair hpart container hnamed hvalue hname
    · exact .done
  · exact .done

theorem takesFrom_collectDynamic (e : Expr) :
    TakesFrom options rowType e (collectDynamic options e) := by
  refine .all fun c hc => ?_
  obtain ⟨part, hpart, rfl⟩ := List.mem_map.mp hc
  exact takesFrom_collectContainer hpart

/-! ## Bodies -/

mutual

theorem takesFrom_collect :
    ∀ e : Expr, TakesFrom options rowType e (collect options rowType e)
  | .const _ => .done
  | .param _ => .done
  | .staticMember _ => .done
  | .member target ref => (takesFrom_collect target).of_child (by simp [Expr.children])
  | .binary _ left right =>
      .andThen ((takesFrom_collect left).of_child (by simp [Expr.children]))
        ((takesFrom_collect right).of_child (by simp [Expr.children]))
  | .call _ _ args => takesFrom_collectAll args fun _ harg => Expr.preorder_subset_of_child harg
  | .lambda _ _ body _ => (takesFrom_collect body).of_child (by simp [Expr.children])
  | .construct type paramNames args => by
      unfold collect
      split
      · exact .done
      · split
        · refine .all fun c hc => ?_
          obtain ⟨⟨label, arg⟩, hfield, rfl⟩ := List.mem_map.mp hc
          exact takesFrom_collectField fun shown hshown =>
            .argument (Expr.self_mem_preorder _) hfield hshown
        · exact .fail _
  | .record type bindings => by
      unfold collect
      split
      · exact takesFrom_collectDynamic _
      · exact takesFrom_collectBindings bindings (Expr.self_mem_preorder _)
          (fun binding h => h) fun binding h =>
            Expr.preorder_subset_of_child (List.mem_map.mpr ⟨binding, h, rfl⟩)
  | .cond test ifTrue ifFalse =>
      .andThen ((takesFrom_collect test).of_child (by simp [Expr.children]))
        (.andThen ((takesFrom_collect ifTrue).of_child (by simp [Expr.children]))
          ((takesFrom_collect ifFalse).of_child (by simp [Expr.children])))
termination_by structural e => e

theorem takesFrom_collectAll {e : Expr} :
    ∀ es : List Expr, (∀ part ∈ es, part.preorder ⊆ e.preorder) →
      TakesFrom options rowType e (collectAll options rowType es)
  | [], _ => .done
  | part :: es, h =>
      .andThen ((takesFrom_collect part).of_subset (h part List.mem_cons_self))
        (takesFrom_collectAll es fun other hother => h other (List.mem_cons_of_mem part hother))
termination_by structural es => es

theorem takesFrom_collectBindings {e : Expr} {type : TypeRef}
    {whole : List (MemberRef × Expr)} :
    ∀ bindings : List (MemberRef × Expr), .record type whole ∈ e.preorder → bindings ⊆ whole →
      (∀ binding ∈ bindings, binding.2.preorder ⊆ e.preorder) →
      TakesFrom options rowType e (collectBindings options rowType bindings)
  | [], _, _, _ => .done
  | (ref, arg) :: bindings, hpart, hwhole, hsub => by
      have hbound : (ref, arg) ∈ whole := hwhole List.mem_cons_self
      have hrest := takesFrom_collectBindings bindings hpart
        (fun binding h => hwhole (List.mem_cons_of_mem _ h))
        (fun binding h => hsub binding (List.mem_cons_of_mem _ h))
      refine .andThen ?_ hrest
      split
      · exact (takesFrom_collect arg).of_subset (hsub (ref, arg) List.mem_cons_self)
      · split
        · rename_i container
          exact takesFrom_collectPublicName fun name hname =>
            .publicName hpart hbound container hname
        · exact takesFrom_collectField fun shown hshown => .binding hpart hbound hshown
termination_by structural bindings => bindings

end

/-- Every collected item is taken from a part of the body. -/
theorem shows_of_mem_collect {e : Expr} {taken : List String} {item : Item}
    (h : item ∈ (collect options rowType e taken).items) : Shows options rowType e item :=
  takesFrom_collect e taken item h

/-! ## Anonymous records -/

/-- A field and the item that shows it. -/
def ShowsField (rowType : TypeRef) (field : String × Expr) (item : Item) : Prop :=
  item.label = field.1 ∧ source rowType field.2 = .ok item.source

theorem forall₂_of_all_collectField {fields : List (String × Expr)} :
    ∀ (taken : List String) {items : List Item},
      Collector.all (fields.map fun field => collectField rowType field.1 field.2) taken =
          ⟨items, none⟩ →
        List.Forall₂ (ShowsField rowType) fields items := by
  induction fields with
  | nil =>
      intro taken items h
      obtain rfl : [] = items := congrArg Collected.items h
      exact .nil
  | cons field fields ih =>
      intro taken items h
      cases hsource : source rowType field.2 with
      | error error =>
          simp [Collector.all, Collector.andThen, collectField, hsource, Collector.ofResult,
            Collector.fail] at h
      | ok shown =>
          simp only [List.map_cons, Collector.all, Collector.andThen, collectField, hsource,
            Collector.ofResult, Collector.item] at h
          obtain rfl := congrArg Collected.items h
          refine .cons ⟨rfl, hsource⟩ (ih (taken ++ [field.1]) ?_)
          exact congrArg (Collected.mk _) (congrArg Collected.error h)

/-- An anonymous record with a field has an item for each field. -/
theorem forall₂_of_collect_anonymous {fields : List (String × Expr)} {type : TypeRef}
    {taken : List String} {items : List Item} (hne : fields ≠ [])
    (h : collect options rowType (Expr.anonymous type fields) taken = ⟨items, none⟩) :
    List.Forall₂ (ShowsField rowType) fields items := by
  apply forall₂_of_all_collectField taken
  rw [← h, Expr.anonymous, collect]
  simp [hne, List.zip_map']

end BoundSql.Projection
