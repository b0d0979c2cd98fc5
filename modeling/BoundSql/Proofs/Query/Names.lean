import BoundSql.Proofs.Projection.Placeholders
import BoundSql.Proofs.Query.Rules

set_option autoImplicit false

/-!
# Names in statements

The names that the text of a statement takes over as they are come from the chain, the options and
the descriptor: a mark that none of these has is in no name of the statement
(`not_mem_names_of_not_mem_copiedNames`).
-/

namespace BoundSql

/-! ## Sources of names -/

/-- The texts that a container in a projection can add: the display of a public name, and the path
that a conditional falls back to. -/
def pairNames : Expr → List String
  | .const value => [value.display]
  | .cond _ _ ifFalse => [Projection.renderedPath ifFalse]
  | _ => []

/-- The names that one part of an expression can add to a statement. -/
def partNames (options : Options) : Expr → List String
  | .member _ ref | .staticMember ref => [ref.name]
  | .construct _ paramNames _ => paramNames
  | .record type bindings =>
    bindings.flatMap fun (ref, e) =>
      ref.name :: (if options.isContainer type then pairNames e else []) ++
        (if options.isContainer ref.declaring then
          (Filter.boundValue? e).toList.filterMap Value.asText?
        else [])
  | _ => []

/-- The names of members, fields, parameters and containers anywhere in an expression. -/
def exprNames (options : Options) (e : Expr) : List String :=
  e.preorder.flatMap (partNames options)

/-- The names that can be copied into a statement for the chain. -/
def copiedNames (options : Options) (chain : Expr) (d : Descriptor) : List String :=
  d.dataset :: options.dotSeparator :: (d.element.propertyNames ++ exprNames options chain)

/-- The names that the text of a statement takes over as they are. -/
def Statement.names (s : Statement) : List String :=
  s.dataset :: (s.items.flatMap Projection.Item.names ++ s.filters.flatMap Filter.Operand.names ++
    s.order.map (·.column))

variable {options : Options} {rowType : TypeRef} {e part : Expr} {c : Char}

theorem exprNames_subset (options : Options) (h : part.preorder ⊆ e.preorder) :
    exprNames options part ⊆ exprNames options e := by
  intro name hname
  obtain ⟨found, hfound, hname⟩ := List.mem_flatMap.mp hname
  exact List.mem_flatMap.mpr ⟨found, h hfound, hname⟩

theorem path_subset_exprNames : e.path ⊆ exprNames options e := by
  intro name hname
  obtain ⟨found, hfound, ref, href, rfl⟩ := Expr.mem_path_iff.mp hname
  refine List.mem_flatMap.mpr ⟨found, hfound, ?_⟩
  cases found with
  | member target other =>
      obtain rfl : other = ref := by simpa [Expr.asMember?] using href
      exact List.mem_cons_self
  | staticMember other =>
      obtain rfl : other = ref := by simpa [Expr.asMember?] using href
      exact List.mem_cons_self
  | _ => simp [Expr.asMember?] at href

/-- A character of a name in the clause of a predicate is a dot or comes from the predicate. -/
theorem Filter.Reads.not_mem_names {o : Filter.Operand} (hdot : c ≠ '.')
    (h : Filter.Reads rowType e o) (hplain : ∀ name ∈ exprNames options e, c ∉ name.toList) :
    ∀ name ∈ o.names, c ∉ name.toList := by
  intro name hname hmem
  obtain ⟨path, -, hpath, rfl⟩ := h.name_eq_joinWith name hname
  rcases Text.mem_toList_joinWith hmem with hmem | ⟨text, htext, hmem⟩
  · exact hdot (by simpa using hmem)
  · exact hplain text (path_subset_exprNames (hpath htext)) hmem

theorem not_mem_names_identity {name : String} (h : c ∉ name.toList) :
    ∀ other ∈ (Projection.Item.identity name).names, c ∉ other.toList := by
  simpa [Projection.Item.identity, Projection.Item.names] using h

/-- The names of the pair of a container. -/
theorem not_mem_names_pairItem {name : String} {value : Expr}
    (hseparator : c ∉ options.dotSeparator.toList) (hname : c ∉ name.toList)
    (hpath : ∀ name ∈ value.path, c ∉ name.toList)
    (hpair : ∀ name ∈ pairNames value, c ∉ name.toList) :
    ∀ other ∈ (Projection.pairItem options name value).names, c ∉ other.toList := by
  cases value with
  | member target ref => exact not_mem_names_identity (hpath _ (Expr.name_mem_path rfl))
  | staticMember ref => exact not_mem_names_identity (hpath _ (Expr.name_mem_path rfl))
  | cond test ifTrue ifFalse =>
      have hrendered : c ∉ (Projection.renderedPath ifFalse).toList :=
        hpair _ List.mem_cons_self
      unfold Projection.pairItem
      dsimp only
      split
      · have hlabel : c ∉
            (Text.replaceDots options.dotSeparator (Projection.renderedPath ifFalse)).toList := by
          intro hmem
          rw [Text.replaceDots, String.toList_ofList] at hmem
          exact (Text.mem_replaceDotsIn hmem).elim hseparator hrendered
        simpa [Projection.Item.names] using ⟨hlabel, hrendered⟩
      · exact not_mem_names_identity hname
  | _ => exact not_mem_names_identity hname

/-- A character of a label or a column of a selected item is a dot or comes from the projection or
the separator. -/
theorem Projection.Shows.not_mem_names {item : Projection.Item}
    (hseparator : c ∉ options.dotSeparator.toList)
    (h : Projection.Shows options rowType e item)
    (hplain : ∀ name ∈ exprNames options e, c ∉ name.toList) :
    ∀ name ∈ item.names, c ∉ name.toList := by
  have hpart {part : Expr} {name : String} (hmem : part ∈ e.preorder)
      (hname : name ∈ partNames options part) : c ∉ name.toList :=
    hplain name (List.mem_flatMap.mpr ⟨part, hmem, hname⟩)
  have hsource {part arg : Expr} {label : String} {shown : Projection.Source}
      (hmem : part ∈ e.preorder) (hchild : arg ∈ part.children) (hlabel : c ∉ label.toList)
      (hshown : Projection.source rowType arg = .ok shown) :
      ∀ name ∈ Projection.Item.names ⟨label, shown⟩, c ∉ name.toList := by
    rcases Projection.source_eq_ok_iff.mp hshown with
      ⟨ref, -, href, rfl⟩ | ⟨-, ⟨v, -, rfl⟩ | ⟨-, rfl⟩⟩
    · have hname := exprNames_subset options (Expr.preorder_subset_of_mem hmem)
        (exprNames_subset options (Expr.preorder_subset_of_child hchild)
          (path_subset_exprNames (Expr.name_mem_path href)))
      simpa [Projection.Item.names] using ⟨hlabel, hplain _ hname⟩
    · simpa [Projection.Item.names] using hlabel
    · simpa [Projection.Item.names] using hlabel
  cases h with
  | argument part field sourced =>
      obtain ⟨hlabel, harg⟩ := List.of_mem_zip field
      exact hsource part harg (hpart part hlabel) sourced
  | binding part bound sourced =>
      refine hsource part (List.mem_map.mpr ⟨_, bound, rfl⟩) (hpart part ?_) sourced
      exact List.mem_flatMap.mpr ⟨_, bound, List.mem_cons_self⟩
  | @publicName type bindings ref arg name part bound container resolved =>
      have hname : c ∉ name.toList := by
        refine hpart part (List.mem_flatMap.mpr ⟨_, bound, ?_⟩)
        simp [container, Filter.boundValue?, resolved, Value.asText?]
      exact not_mem_names_identity hname
  | @pair type bindings named value name part container nameBound valueBound labelled =>
      obtain ⟨nameRef, hnamed⟩ := Projection.mem_of_singleBinding nameBound
      obtain ⟨valueRef, hvalue⟩ := Projection.mem_of_singleBinding valueBound
      have hpair {ref : MemberRef} {bound : Expr} (hbound : (ref, bound) ∈ bindings) :
          ∀ name ∈ pairNames bound, c ∉ name.toList := by
        intro name hname
        refine hpart part (List.mem_flatMap.mpr ⟨_, hbound, ?_⟩)
        simp [container, hname]
      have hchild : value ∈ (Expr.record type bindings).children :=
        List.mem_map.mpr ⟨_, hvalue, rfl⟩
      have hpath : ∀ name ∈ value.path, c ∉ name.toList := by
        intro name hname
        have hsub := exprNames_subset options (Expr.preorder_subset_of_child hchild)
        exact hplain name (exprNames_subset options (Expr.preorder_subset_of_mem part)
          (hsub (path_subset_exprNames hname)))
      have hname : c ∉ name.toList := by
        unfold Projection.publicName? at labelled
        split at labelled
        · split at labelled
          · simp at labelled
          · obtain rfl := Option.some.inj labelled
            exact hpair hnamed _ List.mem_cons_self
        · simp at labelled
      exact not_mem_names_pairItem hseparator hname hpath (hpair hvalue)

/-! ## Names of steps -/

namespace Query

/-- The argument of a step is a part of the chain. -/
theorem argument_preorder_subset_of_stepsBefore {ss : List Step} {s : Step} :
    ∀ {chain : Expr} {later : List Step}, stepsBefore later chain = .ok ss → s ∈ ss →
      s ∈ later ∨ s.argument.preorder ⊆ chain.preorder
  | .call declaring method [source, argument], later, h, hmem => by
      cases hqueryable : declaring.isQueryable with
      | false =>
          simp only [stepsBefore, hqueryable, Bool.false_eq_true, if_false] at h
          exact .inl (Except.ok.inj h ▸ hmem)
      | true =>
          simp only [stepsBefore, hqueryable, if_true] at h
          rcases argument_preorder_subset_of_stepsBefore h hmem with hlater | hsub
          · rcases List.mem_cons.mp hlater with rfl | hlater
            · exact .inr (Expr.preorder_subset_of_child (by simp [Expr.children]))
            · exact .inl hlater
          · refine .inr fun part hpart => ?_
            exact Expr.preorder_subset_of_child (by simp [Expr.children]) (hsub hpart)
  | .call declaring method [], later, h, hmem | .call declaring method [_], later, h, hmem
  | .call declaring method (_ :: _ :: _ :: _), later, h, hmem => by
      cases hqueryable : declaring.isQueryable with
      | false =>
          simp only [stepsBefore, hqueryable, Bool.false_eq_true, if_false] at h
          exact .inl (Except.ok.inj h ▸ hmem)
      | true => simp [stepsBefore, hqueryable] at h
  | .const _, _, h, hmem | .param _, _, h, hmem | .member _ _, _, h, hmem
  | .staticMember _, _, h, hmem | .binary _ _ _, _, h, hmem | .lambda _ _ _ _, _, h, hmem
  | .record _ _, _, h, hmem | .construct _ _ _, _, h, hmem | .cond _ _ _, _, h, hmem =>
      .inl (Except.ok.inj h ▸ hmem)
termination_by chain => sizeOf chain

theorem argument_preorder_subset {chain : Expr} {ss : List Step} {s : Step}
    (h : steps chain = .ok ss) (hmem : s ∈ ss) : s.argument.preorder ⊆ chain.preorder := by
  rcases argument_preorder_subset_of_stepsBefore h hmem with hnil | hsub
  · simp at hnil
  · exact hsub

/-- A character that no name of what was gathered so far has. -/
structure LeavesOut (c : Char) (p : Progress) : Prop where
  items : ∀ f items, p.projection = some (f, items) →
    ∀ item ∈ items, ∀ name ∈ item.names, c ∉ name.toList
  filters : ∀ o ∈ p.filters, ∀ name ∈ o.names, c ∉ name.toList
  order : ∀ key ∈ p.order, c ∉ key.column.toList

theorem LeavesOut.start : LeavesOut c Progress.start where
  items := by simp [Progress.start]
  filters := by simp [Progress.start]
  order := by simp [Progress.start]

theorem not_mem_orderKeys {f : Lambda} {descending : Bool} (hdot : c ≠ '.')
    (hplain : ∀ name ∈ exprNames options f.body, c ∉ name.toList) :
    ∀ key ∈ orderKeys rowType f descending, c ∉ key.column.toList := by
  intro key hkey
  have hcolumn : Progress.orderColumn? rowType f.body = some key.column := by
    simp only [orderKeys, Option.mem_toList, Option.map_eq_some_iff] at hkey
    obtain ⟨column, hcolumn, rfl⟩ := hkey
    exact hcolumn
  unfold Progress.orderColumn? at hcolumn
  split at hcolumn
  · rename_i target ref hbody
    split at hcolumn
    · rw [← Option.some.inj hcolumn]
      refine hplain _ (path_subset_exprNames ?_)
      rw [hbody]
      exact Expr.name_mem_path rfl
    · simp at hcolumn
  · rename_i test ifTrue ifFalse hbody
    have hpath : Text.joinWith "." ifFalse.path = key.column := by
      unfold Expr.dottedPath? at hcolumn
      split at hcolumn
      · simp at hcolumn
      · exact Option.some.inj hcolumn
    intro hmem
    rw [← hpath] at hmem
    rcases Text.mem_toList_joinWith hmem with hmem | ⟨text, htext, hmem⟩
    · exact hdot (by simpa using hmem)
    · refine hplain text (path_subset_exprNames ?_) hmem
      rw [hbody]
      exact Expr.path_subset_of_child (by simp [Expr.children]) htext
  · simp at hcolumn

/-- A step adds only names from its argument. -/
theorem LeavesOut.of_takes {p q : Progress} {s : Step} (hdot : c ≠ '.')
    (hseparator : c ∉ options.dotSeparator.toList)
    (hplain : ∀ name ∈ exprNames options s.argument, c ∉ name.toList)
    (hp : LeavesOut c p) (h : Takes options rowType p s q) : LeavesOut c q := by
  have hbody {f : Lambda} (argument : s.argument.asLambda? = some f) :
      ∀ name ∈ exprNames options f.body, c ∉ name.toList := by
    intro name hname
    exact hplain name (exprNames_subset options (Expr.body_preorder_subset argument) hname)
  cases h with
  | filter named argument tests reads =>
      refine ⟨hp.items, ?_, hp.order⟩
      intro o ho
      rcases List.mem_append.mp ho with ho | ho
      · exact hp.filters o ho
      · obtain rfl := List.mem_singleton.mp ho
        exact reads.not_mem_names hdot (hbody argument)
  | skip named argument tests => exact hp
  | @select f items named first argument collected =>
      refine ⟨?_, hp.filters, hp.order⟩
      intro g others heq item hitem
      obtain ⟨rfl, rfl⟩ := Prod.mk.inj (Option.some.inj heq)
      have hshows : Projection.Shows options rowType f.body item := by
        have hmem : item ∈ (Projection.collect options rowType f.body []).items := by
          rw [collected]
          exact hitem
        exact Projection.shows_of_mem_collect hmem
      exact hshows.not_mem_names hseparator (hbody argument)
  | orderBy named on argument =>
      exact ⟨hp.items, hp.filters, not_mem_orderKeys hdot (hbody argument)⟩
  | thenBy named on argument =>
      refine ⟨hp.items, hp.filters, ?_⟩
      intro key hkey
      rcases List.mem_append.mp hkey with hkey | hkey
      · exact hp.order key hkey
      · exact not_mem_orderKeys hdot (hbody argument) key hkey
  | orderByOff named off => exact ⟨hp.items, hp.filters, by simp⟩
  | thenByOff named off => exact hp

theorem LeavesOut.of_run {ss : List Step} {q : Progress} (hdot : c ≠ '.')
    (hseparator : c ∉ options.dotSeparator.toList)
    (hplain : ∀ s ∈ ss, ∀ name ∈ exprNames options s.argument, c ∉ name.toList) :
    ∀ {p : Progress}, LeavesOut c p → run options rowType p ss = .ok q → LeavesOut c q := by
  induction ss with
  | nil =>
      intro p hp h
      exact Except.ok.inj h ▸ hp
  | cons s ss ih =>
      intro p hp h
      obtain ⟨mid, htakes, hrest⟩ := run_cons_eq_ok_iff.mp h
      have hmid := hp.of_takes hdot hseparator (hplain s List.mem_cons_self) htakes
      exact ih (fun t ht => hplain t (List.mem_cons_of_mem s ht)) hmid hrest

/-- A mark other than a dot that is in no name of the chain, the options and the descriptor is in no
name of the statement. -/
theorem not_mem_names_of_not_mem_copiedNames {chain : Expr} {d : Descriptor} {s : Statement}
    (hdot : c ≠ '.') (h : compileFor options chain d = .ok s)
    (hplain : ∀ name ∈ copiedNames options chain d, c ∉ name.toList) :
    ∀ name ∈ s.names, c ∉ name.toList := by
  obtain ⟨ss, p, hsteps, hrun, hitems, rfl⟩ := compileFor_eq_ok_iff.mp h
  have hseparator : c ∉ options.dotSeparator.toList :=
    hplain _ (List.mem_cons_of_mem _ List.mem_cons_self)
  have hproperties : ∀ name ∈ d.element.propertyNames, c ∉ name.toList := fun name hname =>
    hplain name (List.mem_cons_of_mem _ (List.mem_cons_of_mem _ (List.mem_append_left _ hname)))
  have hexpr : ∀ name ∈ exprNames options chain, c ∉ name.toList := fun name hname =>
    hplain name (List.mem_cons_of_mem _ (List.mem_cons_of_mem _ (List.mem_append_right _ hname)))
  have hleaves : LeavesOut c p :=
    LeavesOut.of_run hdot hseparator
      (fun s hs name hname => hexpr name
        (exprNames_subset options (argument_preorder_subset hsteps hs) hname)) LeavesOut.start hrun
  have hselected : ∀ item ∈ p.items d.element, ∀ name ∈ item.names, c ∉ name.toList := by
    intro item hitem
    unfold Progress.items at hitem
    split at hitem
    · rename_i f first rest hprojection
      exact hleaves.items f (first :: rest) hprojection item hitem
    · obtain ⟨name, hname, rfl⟩ := List.mem_map.mp hitem
      exact not_mem_names_identity (hproperties name hname)
  intro name hname
  simp only [Statement.names, List.mem_cons, List.mem_append, List.mem_flatMap, List.mem_map]
    at hname
  rcases hname with rfl | (⟨item, hitem, hname⟩ | ⟨o, ho, hname⟩) | ⟨key, hkey, rfl⟩
  · exact hplain _ List.mem_cons_self
  · exact hselected item hitem name hname
  · exact hleaves.filters o ho name hname
  · exact hleaves.order key hkey

end Query

end BoundSql
