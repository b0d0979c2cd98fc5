import BoundSql.Proofs.Document.Operands

set_option autoImplicit false

/-!
# Rules of expressions

Which expression a JSON value writes is given by one rule for each kind of expression.  The fields
that a rule does not ask for play no part.  The reading of a document follows exactly these rules
(`expression_eq_ok_iff`).
-/

namespace BoundSql.Document

/-- The JSON value writes the expression. -/
inductive Writes (scope : Scope) : Json → Expr → Prop where
  | plain {json : Json} (notObject : ∀ members, json ≠ .object members) :
      Writes scope json (.const (Value.ofJson json))
  | column {members : List (String × Json)} {path : String}
      (form : Form.ofMembers members = .column path) :
      Writes scope (.object members) (scope.column path)
  | captured {members : List (String × Json)} {path : String}
      (form : Form.ofMembers members = .captured path) :
      Writes scope (.object members) (scope.capturedPath path)
  | static {members : List (String × Json)} {name : String}
      (form : Form.ofMembers members = .static name) :
      Writes scope (.object members) (Expr.ofStatic scope.rowType name)
  | literal {members : List (String × Json)} {value : Json}
      (form : Form.ofMembers members = .literal value) :
      Writes scope (.object members) (.const (Value.ofJson value))
  | operation {members : List (String × Json)} {symbol : String} {op : BinaryOp}
      {leftJson rightJson : Json} {left right : Expr}
      (form : Form.ofMembers members = .operation symbol)
      (sign : BinaryOp.ofSymbol? symbol = some op)
      (leftField : members.lookup "left" = some leftJson)
      (rightField : members.lookup "right" = some rightJson)
      (writesLeft : Writes scope leftJson left) (writesRight : Writes scope rightJson right) :
      Writes scope (.object members) (binaryOf (comparesTexts members) op left right)
  | membership {members : List (String × Json)} {itemJson listJson : Json} {item list : Expr}
      (form : Form.ofMembers members = .membership)
      (itemField : members.lookup "item" = some itemJson)
      (listField : members.lookup "in" = some listJson)
      (writesItem : Writes scope itemJson item) (writesList : Writes scope listJson list) :
      Writes scope (.object members) (Expr.contains list item)
  | conditional {members : List (String × Json)} {testJson thenJson elseJson : Json}
      {test ifTrue ifFalse : Expr}
      (form : Form.ofMembers members = .conditional)
      (testField : members.lookup "if" = some testJson)
      (thenField : members.lookup "then" = some thenJson)
      (elseField : members.lookup "else" = some elseJson)
      (writesTest : Writes scope testJson test) (writesThen : Writes scope thenJson ifTrue)
      (writesElse : Writes scope elseJson ifFalse) :
      Writes scope (.object members) (.cond test ifTrue ifFalse)

variable {scope : Scope} {json : Json} {members : List (String × Json)} {e : Expr}

/-- An object is read by the rule of its kind, if its fields are. -/
theorem writes_of_ofFields
    (hfields : ∀ {key : String} {json : Json} {e : Expr}, members.lookup key = some json →
      expression scope json = .ok e → Writes scope json e)
    (h : ofFields scope members (expressions scope members) = .ok e) :
    Writes scope (.object members) e := by
  unfold ofFields at h
  split at h
  · rename_i path hform
    obtain rfl := Except.ok.inj h
    exact .column hform
  · rename_i path hform
    obtain rfl := Except.ok.inj h
    exact .captured hform
  · rename_i name hform
    obtain rfl := Except.ok.inj h
    exact .static hform
  · rename_i value hform
    obtain rfl := Except.ok.inj h
    exact .literal hform
  · rename_i symbol hform
    split at h
    · cases h
    · rename_i op hsign
      obtain ⟨left, hleft, h⟩ := bind_eq_ok_iff.mp h
      obtain ⟨right, hright, h⟩ := bind_eq_ok_iff.mp h
      obtain rfl := Except.ok.inj h
      obtain ⟨leftJson, hleftField, hleft⟩ := field_eq_ok_iff.mp hleft
      obtain ⟨rightJson, hrightField, hright⟩ := field_eq_ok_iff.mp hright
      exact .operation hform hsign hleftField hrightField (hfields hleftField hleft)
        (hfields hrightField hright)
  · rename_i hform
    obtain ⟨item, hitem, h⟩ := bind_eq_ok_iff.mp h
    obtain ⟨list, hlist, h⟩ := bind_eq_ok_iff.mp h
    obtain rfl := Except.ok.inj h
    obtain ⟨itemJson, hitemField, hitem⟩ := field_eq_ok_iff.mp hitem
    obtain ⟨listJson, hlistField, hlist⟩ := field_eq_ok_iff.mp hlist
    exact .membership hform hitemField hlistField (hfields hitemField hitem)
      (hfields hlistField hlist)
  · rename_i hform
    obtain ⟨test, htest, h⟩ := bind_eq_ok_iff.mp h
    obtain ⟨ifTrue, hthen, h⟩ := bind_eq_ok_iff.mp h
    obtain ⟨ifFalse, helse, h⟩ := bind_eq_ok_iff.mp h
    obtain rfl := Except.ok.inj h
    obtain ⟨testJson, htestField, htest⟩ := field_eq_ok_iff.mp htest
    obtain ⟨thenJson, hthenField, hthen⟩ := field_eq_ok_iff.mp hthen
    obtain ⟨elseJson, helseField, helse⟩ := field_eq_ok_iff.mp helse
    exact .conditional hform htestField hthenField helseField (hfields htestField htest)
      (hfields hthenField hthen) (hfields helseField helse)
  · cases h

theorem expression_of_plain (notObject : ∀ members, json ≠ .object members) :
    expression scope json = .ok (.const (Value.ofJson json)) := by
  cases json with
  | object members => exact absurd rfl (notObject members)
  | _ => rfl

theorem writes_of_plain (h : expression scope json = .ok e)
    (notObject : ∀ members, json ≠ .object members) : Writes scope json e := by
  obtain rfl := Except.ok.inj (h.symm.trans (expression_of_plain notObject))
  exact .plain notObject

mutual

theorem writes_of_expression :
    ∀ {json : Json} {e : Expr}, expression scope json = .ok e → Writes scope json e
  | .object members, _, h => writes_of_ofFields (writes_of_lookup members) h
  | .null, _, h => writes_of_plain h (by simp)
  | .boolean _, _, h => writes_of_plain h (by simp)
  | .integer _, _, h => writes_of_plain h (by simp)
  | .float _, _, h => writes_of_plain h (by simp)
  | .text _, _, h => writes_of_plain h (by simp)
  | .array _, _, h => writes_of_plain h (by simp)
termination_by structural json => json

theorem writes_of_lookup : ∀ (members : List (String × Json)) {key : String} {json : Json}
    {e : Expr}, members.lookup key = some json → expression scope json = .ok e →
      Writes scope json e
  | (name, value) :: members, key, json, e, hlookup, h => by
      rw [List.lookup_cons] at hlookup
      split at hlookup
      · obtain rfl := Option.some.inj hlookup
        exact writes_of_expression h
      · exact writes_of_lookup members hlookup h
termination_by structural members => members

end

theorem expression_of_writes (h : Writes scope json e) : expression scope json = .ok e := by
  induction h with
  | plain notObject => exact expression_of_plain notObject
  | column form => simp only [expression, ofFields, form]
  | captured form => simp only [expression, ofFields, form]
  | static form => simp only [expression, ofFields, form]
  | literal form => simp only [expression, ofFields, form]
  | operation form sign leftField rightField _ _ readsLeft readsRight =>
      simp only [expression, ofFields, form, sign]
      exact bind_eq_ok_iff.mpr ⟨_, field_eq_ok_iff.mpr ⟨_, leftField, readsLeft⟩,
        bind_eq_ok_iff.mpr ⟨_, field_eq_ok_iff.mpr ⟨_, rightField, readsRight⟩, rfl⟩⟩
  | membership form itemField listField _ _ readsItem readsList =>
      simp only [expression, ofFields, form]
      exact bind_eq_ok_iff.mpr ⟨_, field_eq_ok_iff.mpr ⟨_, itemField, readsItem⟩,
        bind_eq_ok_iff.mpr ⟨_, field_eq_ok_iff.mpr ⟨_, listField, readsList⟩, rfl⟩⟩
  | conditional form testField thenField elseField _ _ _ readsTest readsThen readsElse =>
      simp only [expression, ofFields, form]
      exact bind_eq_ok_iff.mpr ⟨_, field_eq_ok_iff.mpr ⟨_, testField, readsTest⟩,
        bind_eq_ok_iff.mpr ⟨_, field_eq_ok_iff.mpr ⟨_, thenField, readsThen⟩,
          bind_eq_ok_iff.mpr ⟨_, field_eq_ok_iff.mpr ⟨_, elseField, readsElse⟩, rfl⟩⟩⟩

/-- An expression is read of a JSON value exactly when the rules let the value write it. -/
theorem expression_eq_ok_iff : expression scope json = .ok e ↔ Writes scope json e :=
  ⟨writes_of_expression, expression_of_writes⟩

end BoundSql.Document
