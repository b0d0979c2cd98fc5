import BoundSql.CompileError

set_option autoImplicit false

/-!
# Literals

A literal is a constant, a member captured one or two levels deep, or a static member.  Everything
else denotes a column or nothing at all, and so does a literal that is null.
-/

namespace BoundSql.Expr

/-- The member of a captured instance. -/
def readMember (name : String) : Value → Except CompileError Value
  | .object members =>
    match members.lookup name with
    | some value => .ok value
    | none => .error (.noSuchMember name)
  | .null => .error (.nullInstance name)
  | value => .error (.notAnObject name value.kind)

/-- The static member of the type that declares it. -/
def readStatic (ref : MemberRef) : Except CompileError Value :=
  match ref.declaring.static? ref.name with
  | some value => .ok value
  | none => .error (.noStaticMember ref.name ref.declaring)

/-- The value of a literal, null included; none for what is no literal. -/
def literal? : Expr → Except CompileError (Option Value)
  | .const value => .ok (some value)
  | .member (.const closure) ref => some <$> readMember ref.name closure
  | .member (.member (.const closure) inner) ref =>
    some <$> (readMember inner.name closure >>= readMember ref.name)
  | .staticMember ref => some <$> readStatic ref
  | _ => .ok none

/-- The value that a literal is bound as; none for null and for what is no literal. -/
def resolve (e : Expr) : Except CompileError (Option Value) :=
  Option.filter (!·.isNull) <$> e.literal?

/-- A resolved value is never null. -/
theorem isNull_of_resolve {e : Expr} {v : Value} (h : e.resolve = .ok (some v)) :
    v.isNull = false := by
  simp only [resolve] at h
  cases hl : e.literal? with
  | error err => rw [hl] at h; cases h
  | ok o =>
    rw [hl] at h
    simp only [Functor.map, Except.map, Except.ok.injEq, Option.filter_eq_some_iff] at h
    simpa using h.2

end BoundSql.Expr
