import BoundSql.Proofs.Expr.Parts
import BoundSql.Proofs.Filter.Rules
import BoundSql.Proofs.Text.Placeholders

set_option autoImplicit false

/-!
# Placeholders of clauses

The values of a clause belong to its placeholders, and they are the literals of the predicate that
are not null, from left to right (`Reads.values_eq`).
-/

namespace BoundSql

namespace Filter

/-! ## Values in place -/

/-- One alternative of a membership with its item in place. -/
def itemInlined (mark : Value → String) (column : String) (item : Value) : String :=
  if item.isNull then column ++ " = " ++ nullText else column ++ " = " ++ mark item

namespace Operand

/-- The text of an operand with every value in place of its placeholder. -/
def inlined (mark : Value → String) : Operand → String
  | .column name => name
  | .bound value => " " ++ mark value ++ " "
  | .null => nullText
  | .blank => ""
  | .group left connective right =>
    "(" ++ left.inlined mark ++ connective.text ++ right.inlined mark ++ ")"
  | .membership name items => "(" ++ Text.joinWith " OR " (items.map (itemInlined mark name)) ++ ")"

/-- The names that the text of an operand takes over as they are. -/
def names : Operand → List String
  | .column name => [name]
  | .bound _ => []
  | .null => []
  | .blank => []
  | .group left _ right => left.names ++ right.names
  | .membership name _ => [name]

theorem names_ofValue? (value? : Option Value) : (ofValue? value?).names = [] := by
  cases value? <;> rfl

theorem values_ofValue? (value? : Option Value) : (ofValue? value?).values = value?.toList := by
  cases value? <;> rfl

end Operand

theorem not_mem_text_connective (sign : Connective) : '?' ∉ sign.text.toList := by
  cases sign <;> simp [Connective.text]

open Text

variable {mark : Value → String}

theorem aligned_itemText {column : String} (h : '?' ∉ column.toList) (item : Value) :
    Aligned mark (itemText column item) ([item].filter (!·.isNull))
      (itemInlined mark column item) := by
  unfold itemText itemInlined
  cases hnull : item.isNull with
  | true =>
      have hplain : '?' ∉ (column ++ " = " ++ nullText).toList := by simp [nullText, h]
      have haligned : Aligned mark _ [] _ := aligned_of_not_mem hplain
      simpa [hnull] using haligned
  | false =>
      have hplain : '?' ∉ (column ++ " = ").toList := by simp [h]
      have hmark : Aligned mark "?" [item] (mark item) := aligned_placeholder item
      have haligned := (aligned_of_not_mem hplain).append hmark
      have htext : column ++ " = " ++ "?" = column ++ " = ?" := by
        apply String.toList_inj.mp
        simp
      simpa [hnull, htext] using haligned

/-- The values of an operand belong to its placeholders. -/
theorem aligned_operand {o : Operand} (h : ∀ name ∈ o.names, '?' ∉ name.toList) :
    Aligned mark o.text o.values (o.inlined mark) := by
  induction o with
  | column name => exact aligned_of_not_mem (h name List.mem_cons_self)
  | bound value =>
      have hblank : '?' ∉ " ".toList := by simp
      have hmark : Aligned mark "?" [value] (mark value) := aligned_placeholder value
      have hleft := (aligned_of_not_mem hblank).append hmark
      exact hleft.append (aligned_of_not_mem hblank)
  | null => exact aligned_of_not_mem (by simp [Operand.text, nullText])
  | blank => exact aligned_of_not_mem (by simp [Operand.text])
  | group left sign right ihLeft ihRight =>
      have hleft := ihLeft fun name hname => h name (List.mem_append_left _ hname)
      have hright := ihRight fun name hname => h name (List.mem_append_right _ hname)
      have hopen : Aligned mark "(" [] "(" := aligned_of_not_mem (by simp)
      have hsign : Aligned mark sign.text [] sign.text :=
        aligned_of_not_mem (not_mem_text_connective sign)
      have hclose : Aligned mark ")" [] ")" := aligned_of_not_mem (by simp)
      have hgroup := (((hopen.append hleft).append hsign).append hright).append hclose
      simpa [Operand.text, Operand.values, Operand.inlined] using hgroup
  | membership name items =>
      have hname : '?' ∉ name.toList := h name List.mem_cons_self
      have hopen : Aligned mark "(" [] "(" := aligned_of_not_mem (by simp)
      have hseparator : '?' ∉ " OR ".toList := by simp
      have hitems : Aligned mark _ (items.flatMap fun item => [item].filter (!·.isNull)) _ :=
        aligned_joinWith hseparator fun item _ => aligned_itemText hname item
      have hclose : Aligned mark ")" [] ")" := aligned_of_not_mem (by simp)
      have hvalues : (items.flatMap fun item => [item].filter (!·.isNull)) =
          items.filter (!·.isNull) := by
        rw [← List.filter_flatMap, List.flatMap_singleton']
      rw [hvalues] at hitems
      simpa [Operand.text, Operand.values, Operand.inlined] using
        (hopen.append hitems).append hclose

/-! ## Values of predicates -/

/-- The value that an expression is bound as, if it is a literal that is not null. -/
def boundValue? (e : Expr) : Option Value :=
  match e.resolve with
  | .ok value? => value?
  | .error _ => none

/-- The items of a list literal that are not null. -/
def searchedValues (list : Expr) : List Value :=
  match boundValue? list with
  | some (.array items) => items.filter (!·.isNull)
  | _ => []

/-- The literals of a predicate over rows of a type that are not null, from left to right: those
that stand as operands, those that a text is compared with, and the items of searched lists. -/
def predicateValues (rowType : TypeRef) : Expr → List Value
  | .const value => (boundValue? (.const value)).toList
  | .member target ref =>
    if ref.declaring.sameType rowType then [] else (boundValue? (.member target ref)).toList
  | .staticMember ref => (boundValue? (.staticMember ref)).toList
  | .binary _ left right =>
    match textCompareArgs? left with
    | some (_, value) => (boundValue? value).toList
    | none => predicateValues rowType left ++ predicateValues rowType right
  | .call _ method [list, _] => if method = Expr.containsMethod then searchedValues list else []
  | .lambda _ _ body _ => predicateValues rowType body
  | _ => []

theorem predicateValues_of_literal {rowType : TypeRef} {e : Expr}
    (form : isLiteralForm e = true) (foreign : e.isRowMember rowType = false) :
    predicateValues rowType e = (boundValue? e).toList := by
  cases e with
  | const value => rfl
  | staticMember ref => rfl
  | member target ref =>
      have own : ref.declaring.sameType rowType = false := foreign
      simp [predicateValues, own]
  | _ => simp [isLiteralForm] at form

/-- The values of a reading are the literals of the expression from left to right. -/
theorem Reads.values_eq {rowType : TypeRef} {e : Expr} {o : Operand} (h : Reads rowType e o) :
    o.values = predicateValues rowType e := by
  induction h with
  | column own => simp [Operand.values, predicateValues, own]
  | literal form foreign resolved =>
      rw [predicateValues_of_literal form foreign, Operand.values_ofValue?]
      simp only [boundValue?, resolved]
  | row => rfl
  | textCompare compared member signed resolved =>
      simp [Operand.values, Operand.values_ofValue?, predicateValues, compared, boundValue?,
        resolved]
  | fallback dotted signed _ ih =>
      simp [Operand.values, predicateValues, textCompareArgs?, ih]
  | binary plain _ signed _ ihLeft ihRight =>
      simp [Operand.values, predicateValues, plain, ihLeft, ihRight]
  | membership listed member =>
      obtain ⟨hlist, _⟩ := listItems_eq_ok_iff.mp listed
      simp [Operand.values, predicateValues, searchedValues, boundValue?, hlist]
  | lambda _ ih => rw [ih, predicateValues]

/-- No value of a reading is null. -/
theorem Reads.not_null_mem_values {rowType : TypeRef} {e : Expr} {o : Operand}
    (h : Reads rowType e o) : Value.null ∉ o.values := by
  have hliteral {e : Expr} {value? : Option Value} (resolved : e.resolve = .ok value?) :
      Value.null ∉ (Operand.ofValue? value?).values := by
    intro hmem
    rw [Operand.values_ofValue?, Option.mem_toList] at hmem
    subst hmem
    exact absurd (Expr.isNull_of_resolve resolved) (by simp [Value.isNull])
  induction h with
  | column own => simp [Operand.values]
  | literal form foreign resolved => exact hliteral resolved
  | row => simp [Operand.values]
  | textCompare compared member signed resolved =>
      simpa [Operand.values] using hliteral resolved
  | fallback dotted signed _ ih => simpa [Operand.values] using ih
  | binary plain _ signed _ ihLeft ihRight => simp [Operand.values, ihLeft, ihRight]
  | membership listed member => simp [Operand.values, Value.isNull]
  | lambda _ ih => exact ih

/-! ## Names of predicates -/

/-- Every name in a reading is the dotted path through members that the expression reads. -/
theorem Reads.name_eq_joinWith {rowType : TypeRef} {e : Expr} {o : Operand}
    (h : Reads rowType e o) :
    ∀ name ∈ o.names, ∃ path, path ≠ [] ∧ path ⊆ e.path ∧ name = joinWith "." path := by
  have hmember {e : Expr} {ref : MemberRef} (href : e.asMember? = some ref) :
      ∃ path, path ≠ [] ∧ path ⊆ e.path ∧ ref.name = joinWith "." path :=
    ⟨[ref.name], by simp, by simpa using Expr.name_mem_path href, rfl⟩
  have hchild {child e : Expr} {name : String} (hmem : child ∈ e.children)
      (hname : ∃ path, path ≠ [] ∧ path ⊆ child.path ∧ name = joinWith "." path) :
      ∃ path, path ≠ [] ∧ path ⊆ e.path ∧ name = joinWith "." path := by
    obtain ⟨path, hne, hsub, heq⟩ := hname
    exact ⟨path, hne, fun n hn => Expr.path_subset_of_child hmem (hsub hn), heq⟩
  induction h with
  | column own =>
      intro name hname
      obtain rfl := List.mem_singleton.mp hname
      exact hmember rfl
  | literal form foreign resolved => simp [Operand.names_ofValue?]
  | row => simp [Operand.names]
  | textCompare compared member signed resolved =>
      intro name hname
      simp only [Operand.names, Operand.names_ofValue?, List.append_nil, List.mem_singleton]
        at hname
      subst hname
      have hleft := hchild (comparedItem_mem_children compared) (hmember member)
      exact hchild (by simp [Expr.children]) hleft
  | @fallback op test ifTrue ifFalse right path sign second dotted signed _ ih =>
      intro name hname
      rcases List.mem_cons.mp hname with rfl | hname
      · have hpath : ifFalse.path ≠ [] ∧ joinWith "." ifFalse.path = name := by
          simpa [Expr.dottedPath?] using dotted
        have hself : ∃ path, path ≠ [] ∧ path ⊆ ifFalse.path ∧ name = joinWith "." path :=
          ⟨ifFalse.path, hpath.1, fun n hn => hn, hpath.2.symm⟩
        have hcond := hchild (e := .cond test ifTrue ifFalse) (by simp [Expr.children]) hself
        exact hchild (by simp [Expr.children]) hcond
      · exact hchild (by simp [Expr.children]) (ih name hname)
  | binary plain _ signed _ ihLeft ihRight =>
      intro name hname
      rcases List.mem_append.mp hname with hname | hname
      · exact hchild (by simp [Expr.children]) (ihLeft name hname)
      · exact hchild (by simp [Expr.children]) (ihRight name hname)
  | membership listed member =>
      intro name hname
      obtain rfl := List.mem_singleton.mp hname
      exact hchild (by simp [Expr.children]) (hmember member)
  | lambda _ ih =>
      intro name hname
      exact hchild (by simp [Expr.children]) (ih name hname)

end Filter

end BoundSql
