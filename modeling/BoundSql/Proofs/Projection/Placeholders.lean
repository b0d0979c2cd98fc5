import BoundSql.Proofs.Filter.Placeholders
import BoundSql.Proofs.Projection.Rules
import Mathlib.Data.List.Basic

set_option autoImplicit false

/-!
# Placeholders of selected items

The values of selected items belong to the placeholders of their text, and they are the literals
that the fields of a projection resolve to, in the order of the fields (`values_collect`).
-/

namespace BoundSql.Projection

open Text

/-! ## Values in place -/

/-- The text of a source with its value in place. -/
def Source.inlined (mark : Value → String) : Source → String
  | .column name => name
  | .bound value => mark value
  | .null => Filter.nullText

/-- The text of an item with its value in place. -/
def Item.inlined (mark : Value → String) (item : Item) : String :=
  item.source.inlined mark ++ " AS " ++ item.label

/-- The names that the text of an item takes over as they are. -/
def Item.names (item : Item) : List String :=
  match item.source with
  | .column name => [item.label, name]
  | _ => [item.label]

variable {mark : Value → String}

/-- The value of an item belongs to its placeholder. -/
theorem aligned_item {item : Item} (h : ∀ name ∈ item.names, '?' ∉ name.toList) :
    Aligned mark item.column.text item.source.value?.toList (item.inlined mark) := by
  obtain ⟨label, source⟩ := item
  have hlabel : '?' ∉ label.toList := h label (by cases source <;> simp [Item.names])
  have hrest : Aligned mark (" AS " ++ label) [] (" AS " ++ label) :=
    aligned_of_not_mem (by simp [hlabel])
  have hsource : Aligned mark source.text source.value?.toList (source.inlined mark) := by
    cases source with
    | column name => exact aligned_of_not_mem (h name (by simp [Item.names]))
    | bound value => exact aligned_placeholder value
    | null => exact aligned_of_not_mem (by simp [Source.text, Filter.nullText])
  simpa [Item.column, Column.text, Item.inlined, String.append_assoc] using hsource.append hrest

theorem values_eq_flatMap (items : List Item) :
    values items = items.flatMap fun item => item.source.value?.toList := by
  exact List.filterMap_eq_flatMap_toList _ items

/-! ## Values of projections -/

/-- The value that a field binds, if it shows a literal that is not null. -/
def fieldValues (rowType : TypeRef) (e : Expr) : List Value :=
  if e.isRowMember rowType then [] else (Filter.boundValue? e).toList

mutual

/-- The literals that the fields of a projection resolve to, in the order of the fields.  Dynamic
containers have none. -/
def projectedValues (options : Options) (rowType : TypeRef) : Expr → List Value
  | .const _ | .param _ | .staticMember _ => []
  | .member target _ => projectedValues options rowType target
  | .binary _ left right =>
    projectedValues options rowType left ++ projectedValues options rowType right
  | .call _ _ args => projectedValuesAll options rowType args
  | .lambda _ _ body _ => projectedValues options rowType body
  | .construct _ _ args => args.flatMap (fieldValues rowType)
  | .record type bindings =>
    if options.isContainer type then [] else boundValues options rowType bindings
  | .cond test ifTrue ifFalse =>
    projectedValues options rowType test ++
      (projectedValues options rowType ifTrue ++ projectedValues options rowType ifFalse)
termination_by structural e => e

/-- The literals of several expressions, one expression after another. -/
def projectedValuesAll (options : Options) (rowType : TypeRef) : List Expr → List Value
  | [] => []
  | e :: es => projectedValues options rowType e ++ projectedValuesAll options rowType es
termination_by structural es => es

/-- The literals of the members of a record, one member after another. -/
def boundValues (options : Options) (rowType : TypeRef) : List (MemberRef × Expr) → List Value
  | [] => []
  | (ref, e) :: bindings =>
    (if !ref.type.isBasic true then projectedValues options rowType e
      else if options.isContainer ref.declaring then []
      else fieldValues rowType e) ++ boundValues options rowType bindings
termination_by structural bindings => bindings

end

/-- A collector that does not stop yields items with just these values. -/
def Yields (c : Collector) (vs : List Value) : Prop :=
  ∀ taken, (c taken).error = none → values (c taken).items = vs

namespace Yields

variable {c c' : Collector} {vs vs' : List Value}

theorem done : Yields Collector.done [] := fun _ _ => rfl

theorem fail (error : CompileError) : Yields (Collector.fail error) vs := by
  intro taken h
  simp [Collector.fail] at h

theorem item (i : Item) : Yields (Collector.item i) i.source.value?.toList := by
  intro taken _
  simp [Collector.item, values_eq_flatMap]

theorem newItem_identity (name : String) : Yields (Collector.newItem (.identity name)) [] := by
  intro taken _
  unfold Collector.newItem
  split <;> rfl

theorem ofResult {α : Type} {result : Except CompileError α} {next : α → Collector}
    (h : ∀ a, result = .ok a → Yields (next a) vs) :
    Yields (Collector.ofResult result next) vs := by
  unfold Collector.ofResult
  split
  · exact h _ rfl
  · exact fail _

theorem andThen (h : Yields c vs) (h' : Yields c' vs') : Yields (c.andThen c') (vs ++ vs') := by
  intro taken hnone
  simp only [Collector.andThen] at hnone ⊢
  split
  · rename_i error herror
    simp [herror] at hnone
  · rename_i herror
    simp only [herror] at hnone
    rw [values, List.filterMap_append]
    exact congrArg₂ (· ++ ·) (h taken herror) (h' _ hnone)

theorem all {α : Type} {xs : List α} {collector : α → Collector} {value : α → List Value}
    (h : ∀ x ∈ xs, Yields (collector x) (value x)) :
    Yields (Collector.all (xs.map collector)) (xs.flatMap value) := by
  induction xs with
  | nil => exact done
  | cons x xs ih =>
      have hrest := ih fun y hy => h y (List.mem_cons_of_mem x hy)
      simpa [Collector.all] using andThen (h x List.mem_cons_self) hrest

end Yields

variable {options : Options} {rowType : TypeRef}

/-- The value of what a field shows is the value of the field. -/
theorem value?_of_source {e : Expr} {shown : Source} (h : source rowType e = .ok shown) :
    shown.value?.toList = fieldValues rowType e := by
  unfold fieldValues Filter.boundValue?
  rcases source_eq_ok_iff.mp h with
    ⟨ref, hrow, -, rfl⟩ | ⟨hrow, ⟨v, hresolve, rfl⟩ | ⟨hresolve, rfl⟩⟩
  · simp [hrow, Source.value?]
  · simp [hrow, hresolve, Source.value?]
  · simp [hrow, hresolve, Source.value?]

theorem yields_collectField (label : String) (e : Expr) :
    Yields (collectField rowType label e) (fieldValues rowType e) :=
  .ofResult fun shown hshown => value?_of_source hshown ▸ Yields.item ⟨label, shown⟩

theorem yields_collectPublicName (e : Expr) : Yields (collectPublicName e) [] := by
  refine .ofResult fun value? _ => ?_
  split
  · split
    · exact .done
    · exact .newItem_identity _
  · exact .done

theorem value?_pairItem (name : String) (value : Expr) :
    (pairItem options name value).source.value? = none := by
  unfold pairItem
  split
  · rfl
  · rfl
  · split <;> rfl
  · rfl

theorem yields_collectContainer (e : Expr) : Yields (collectContainer options e) [] := by
  unfold collectContainer
  split
  · split
    · refine .ofResult fun named _ => .ofResult fun value _ => ?_
      split
      · exact .done
      · rename_i name _
        intro taken _
        dsimp only
        split
        · rfl
        · simp [values, value?_pairItem]
    · exact .done
  · exact .done

/-- Dynamic containers bind nothing. -/
theorem yields_collectDynamic (e : Expr) : Yields (collectDynamic options e) [] := by
  have hnone : (e.preorder.flatMap fun _ => ([] : List Value)) = [] :=
    List.flatMap_eq_nil_iff.mpr fun _ _ => rfl
  rw [← hnone]
  exact .all fun part _ => yields_collectContainer part

mutual

theorem yields_collect :
    ∀ e : Expr, Yields (collect options rowType e) (projectedValues options rowType e)
  | .const _ => .done
  | .param _ => .done
  | .staticMember _ => .done
  | .member target _ => yields_collect target
  | .binary _ left right => .andThen (yields_collect left) (yields_collect right)
  | .call _ _ args => yields_collectAll args
  | .lambda _ _ body _ => yields_collect body
  | .construct type paramNames args => by
      unfold collect projectedValues
      split
      · rename_i hempty
        rw [List.isEmpty_iff.mp hempty]
        exact .done
      · split
        · rename_i hlength
          have hfields : args.flatMap (fieldValues rowType) =
              (paramNames.zip args).flatMap fun field => fieldValues rowType field.2 := by
            have hargs : (paramNames.zip args).map (·.2) = args :=
              List.map_snd_zip (Nat.le_of_eq hlength)
            have hzip : ((paramNames.zip args).map (·.2)).flatMap (fieldValues rowType) = _ :=
              List.flatMap_map _ _ _
            rwa [hargs] at hzip
          rw [hfields]
          exact .all fun field _ => yields_collectField field.1 field.2
        · exact .fail _
  | .record type bindings => by
      unfold collect projectedValues
      split
      · exact yields_collectDynamic _
      · exact yields_collectBindings bindings
  | .cond test ifTrue ifFalse =>
      .andThen (yields_collect test) (.andThen (yields_collect ifTrue) (yields_collect ifFalse))
termination_by structural e => e

theorem yields_collectAll :
    ∀ es : List Expr, Yields (collectAll options rowType es) (projectedValuesAll options rowType es)
  | [] => .done
  | e :: es => .andThen (yields_collect e) (yields_collectAll es)
termination_by structural es => es

theorem yields_collectBindings :
    ∀ bindings : List (MemberRef × Expr),
      Yields (collectBindings options rowType bindings) (boundValues options rowType bindings)
  | [] => .done
  | (ref, e) :: bindings => by
      refine .andThen ?_ (yields_collectBindings bindings)
      split
      · exact yields_collect e
      · split
        · exact yields_collectPublicName e
        · exact yields_collectField ref.name e
termination_by structural bindings => bindings

end

/-- No item binds null. -/
theorem Shows.value?_ne_null {e : Expr} {item : Item} (h : Shows options rowType e item) :
    item.source.value? ≠ some .null := by
  have hsource {arg : Expr} {shown : Source} (hshown : source rowType arg = .ok shown) :
      shown.value? ≠ some .null := by
    rcases source_eq_ok_iff.mp hshown with ⟨ref, -, -, rfl⟩ | ⟨-, ⟨v, hv, rfl⟩ | ⟨-, rfl⟩⟩
    · simp [Source.value?]
    · intro hnull
      obtain rfl := Option.some.inj hnull
      exact absurd (Expr.isNull_of_resolve hv) (by simp [Value.isNull])
    · simp [Source.value?]
  cases h with
  | argument part field sourced => exact hsource sourced
  | binding part bound sourced => exact hsource sourced
  | publicName part bound container resolved => simp [Item.identity, Source.value?]
  | pair part container nameBound valueBound labelled => simp [value?_pairItem]

/-- A projection that is collected to its end binds the literals of its fields in order. -/
theorem values_of_collect {e : Expr} {taken : List String} {items : List Item}
    (h : collect options rowType e taken = ⟨items, none⟩) :
    values items = projectedValues options rowType e := by
  have hyields := yields_collect e taken (by rw [h])
  rwa [h] at hyields

end BoundSql.Projection
