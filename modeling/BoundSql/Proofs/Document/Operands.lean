import BoundSql.Proofs.Document.Paths

set_option autoImplicit false

/-!
# Columns among operands

The filters of a document are written with binary expressions, one inside another.  A column that
stands on a side of one of them stands in the same place of the clause (`at?_of_reads`), as the
column that the row type takes its path for, or as NULL.
-/

namespace BoundSql

/-- A side of a binary expression. -/
inductive Side where
  | left
  | right
  deriving DecidableEq

/-- The key under which a document has a side. -/
def Side.key : Side → String
  | .left => "left"
  | .right => "right"

/-- The part of a clause that sides lead to. -/
def Filter.Operand.at? : List Side → Filter.Operand → Option Filter.Operand
  | [], o => some o
  | .left :: sides, .group left _ _ => left.at? sides
  | .right :: sides, .group _ _ right => right.at? sides
  | _ :: _, _ => none

namespace Document

/-- Do members write a binary expression that does not compare texts? -/
def isPlainOperation (members : List (String × Json)) : Bool :=
  match Form.ofMembers members with
  | .operation _ => !comparesTexts members
  | _ => false

/-- The JSON value that sides lead to, by way of binary expressions that do not compare texts. -/
def operandAt? : List Side → Json → Option Json
  | [], json => some json
  | side :: sides, .object members =>
    if isPlainOperation members then members.lookup side.key >>= operandAt? sides else none
  | _ :: _, _ => none

/-- The path of the column that a JSON value writes. -/
def columnPath? : Json → Option String
  | .object members =>
    match Form.ofMembers members with
    | .column path => some path
    | _ => none
  | _ => none

variable {scope : Scope} {json operand : Json} {members : List (String × Json)} {e : Expr}
  {path : String} {sides : List Side}

theorem columnPath?_eq_some_iff :
    columnPath? json = some path ↔
      ∃ members, json = .object members ∧ Form.ofMembers members = .column path := by
  unfold columnPath?
  cases json with
  | object members => cases hform : Form.ofMembers members <;> simp [hform]
  | _ => simp

theorem isPlainOperation_iff :
    isPlainOperation members = true ↔
      ∃ symbol, Form.ofMembers members = .operation symbol ∧ comparesTexts members = false := by
  unfold isPlainOperation
  cases Form.ofMembers members <;> simp

theorem operandAt?_cons_eq_some_iff {side : Side} :
    operandAt? (side :: sides) json = some operand ↔
      ∃ members part, json = .object members ∧ isPlainOperation members = true ∧
        members.lookup side.key = some part ∧ operandAt? sides part = some operand := by
  cases json with
  | object members =>
      cases hplain : isPlainOperation members with
      | false => simp [operandAt?, hplain]
      | true => simp [operandAt?, hplain, Option.bind_eq_some_iff]
  | _ => simp [operandAt?]

/-! ### Reading -/

theorem lookup_expressions (scope : Scope) (members : List (String × Json)) (key : String) :
    (expressions scope members).lookup key = (members.lookup key).map (expression scope) := by
  induction members with
  | nil => rfl
  | cons member members ih =>
      obtain ⟨name, value⟩ := member
      simp only [expressions, List.lookup_cons, ih]
      split <;> rfl

theorem field_eq_ok_iff {key : String} :
    field (expressions scope members) key = .ok e ↔
      ∃ json, members.lookup key = some json ∧ expression scope json = .ok e := by
  unfold field
  rw [lookup_expressions]
  cases members.lookup key <;> simp

/-- A column is read as the path that it writes. -/
theorem expression_of_columnPath? (h : columnPath? json = some path) :
    expression scope json = .ok (scope.column path) := by
  obtain ⟨members, rfl, hform⟩ := columnPath?_eq_some_iff.mp h
  simp only [expression, ofFields, hform]

/-- A binary expression that does not compare texts is read side by side. -/
theorem expression_of_isPlainOperation (h : isPlainOperation members = true)
    (hread : expression scope (.object members) = .ok e) :
    ∃ op left right, e = .binary op left right ∧
      (∃ json, members.lookup Side.left.key = some json ∧ expression scope json = .ok left) ∧
      ∃ json, members.lookup Side.right.key = some json ∧ expression scope json = .ok right := by
  obtain ⟨symbol, hform, hplain⟩ := isPlainOperation_iff.mp h
  simp only [expression, ofFields, hform] at hread
  cases hsymbol : BinaryOp.ofSymbol? symbol with
  | none => simp [hsymbol] at hread
  | some op =>
      simp only [hsymbol] at hread
      obtain ⟨left, hleft, hread⟩ := bind_eq_ok_iff.mp hread
      obtain ⟨right, hright, hread⟩ := bind_eq_ok_iff.mp hread
      obtain rfl := Except.ok.inj hread
      refine ⟨op, left, right, ?_, field_eq_ok_iff.mp hleft, field_eq_ok_iff.mp hright⟩
      simp [binaryOf, hplain]

/-- A comparison of texts is never written on its own. -/
theorem textCompareArgs?_of_expression (hread : expression scope json = .ok e) :
    Filter.textCompareArgs? e = none := by
  cases json with
  | object members =>
      simp only [expression, ofFields] at hread
      split at hread
      · rename_i path _
        obtain rfl := Except.ok.inj hread
        obtain ⟨inner, name, -, hcolumn⟩ := scope.exists_column_eq path
        rw [hcolumn]
        rfl
      · rename_i path _
        obtain rfl := Except.ok.inj hread
        obtain ⟨inner, name, hsegments⟩ := Text.exists_segments_eq path
        rw [Scope.capturedPath, Expr.accessPath, hsegments, Expr.accessAll_concat]
        rfl
      · obtain rfl := Except.ok.inj hread
        rfl
      · obtain rfl := Except.ok.inj hread
        rfl
      · split at hread
        · simp at hread
        · obtain ⟨left, -, hread⟩ := bind_eq_ok_iff.mp hread
          obtain ⟨right, -, hread⟩ := bind_eq_ok_iff.mp hread
          obtain rfl := Except.ok.inj hread
          unfold binaryOf
          split <;> rfl
      · obtain ⟨item, -, hread⟩ := bind_eq_ok_iff.mp hread
        obtain ⟨list, -, hread⟩ := bind_eq_ok_iff.mp hread
        obtain rfl := Except.ok.inj hread
        rfl
      · obtain ⟨test, -, hread⟩ := bind_eq_ok_iff.mp hread
        obtain ⟨ifTrue, -, hread⟩ := bind_eq_ok_iff.mp hread
        obtain ⟨ifFalse, -, hread⟩ := bind_eq_ok_iff.mp hread
        obtain rfl := Except.ok.inj hread
        rfl
      · simp at hread
  | _ =>
      obtain rfl := Except.ok.inj hread
      rfl

/-- What leads to a column is no conditional. -/
theorem not_cond_of_operandAt? {test ifTrue ifFalse : Expr}
    (hread : expression scope json = .ok (.cond test ifTrue ifFalse))
    (hat : operandAt? sides json = some operand) (hpath : columnPath? operand = some path) :
    False := by
  cases sides with
  | nil =>
      obtain rfl := Option.some.inj hat
      obtain ⟨inner, name, -, hcolumn⟩ := scope.exists_column_eq path
      rw [expression_of_columnPath? hpath, hcolumn] at hread
      simp at hread
  | cons side sides =>
      obtain ⟨members, part, rfl, hplain, -⟩ := operandAt?_cons_eq_some_iff.mp hat
      obtain ⟨op, left, right, heq, -⟩ := expression_of_isPlainOperation hplain hread
      simp at heq

/-- A column among the operands of a filter is shown in the same place of the clause. -/
theorem at?_of_reads (hpath : columnPath? operand = some path) :
    ∀ {sides : List Side} {json : Json} {e : Expr} {o : Filter.Operand},
      expression scope json = .ok e → Filter.Reads scope.rowType e o →
        operandAt? sides json = some operand →
          o.at? sides = some (.ofColumn? (scope.rowType.column? path)) := by
  intro sides
  induction sides with
  | nil =>
      intro json e o hread hreads hat
      obtain rfl := Option.some.inj hat
      obtain rfl := Except.ok.inj ((expression_of_columnPath? hpath).symm.trans hread)
      have hoperand := Filter.operand_eq_ok_iff.mpr hreads
      rw [scope.operand_column path] at hoperand
      obtain rfl := Except.ok.inj hoperand
      rfl
  | cons side sides ih =>
      intro json e o hread hreads hat
      obtain ⟨members, part, rfl, hplain, hlookup, hat⟩ := operandAt?_cons_eq_some_iff.mp hat
      obtain ⟨op, left, right, rfl, ⟨leftPart, hleft, hreadLeft⟩, rightPart, hright, hreadRight⟩ :=
        expression_of_isPlainOperation hplain hread
      cases hreads with
      | literal form _ _ => simp [Filter.isLiteralForm] at form
      | textCompare compared _ _ _ =>
          rw [textCompareArgs?_of_expression hreadLeft] at compared
          simp at compared
      | fallback _ _ readsRight =>
          cases side with
          | left =>
              obtain rfl := Option.some.inj (hleft.symm.trans hlookup)
              exact (not_cond_of_operandAt? hreadLeft hat hpath).elim
          | right =>
              obtain rfl := Option.some.inj (hright.symm.trans hlookup)
              exact ih hreadRight readsRight hat
      | binary _ readsLeft _ readsRight =>
          cases side with
          | left =>
              obtain rfl := Option.some.inj (hleft.symm.trans hlookup)
              exact ih hreadLeft readsLeft hat
          | right =>
              obtain rfl := Option.some.inj (hright.symm.trans hlookup)
              exact ih hreadRight readsRight hat

/-- A filter of a document and its clause, if it has one: where the filter has a column as an
operand, the clause shows what the row type takes the column for. -/
structure FilterShows (scope : Scope) (json : Json) (clause? : Option Filter.Operand) : Prop where
  clause : ∃ e, expression scope json = .ok e ∧
    Filter.clause? scope.rowType (scope.functionOf e) = .ok clause?
  columns : ∀ o ∈ clause?, ∀ sides operand path, operandAt? sides json = some operand →
    columnPath? operand = some path → o.at? sides = some (.ofColumn? (scope.rowType.column? path))

theorem filterShows_of_clause? {clause? : Option Filter.Operand}
    (hread : expression scope json = .ok e)
    (hclause : Filter.clause? scope.rowType (scope.functionOf e) = .ok clause?) :
    FilterShows scope json clause? where
  clause := ⟨e, hread, hclause⟩
  columns := by
    intro o ho sides operand path hat hpath
    obtain rfl := Option.mem_def.mp ho
    obtain ⟨f, hlambda, -, hreads⟩ := Filter.clause?_eq_some_iff.mp hclause
    obtain rfl := Option.some.inj hlambda
    exact at?_of_reads hpath hread hreads hat

end Document

end BoundSql
