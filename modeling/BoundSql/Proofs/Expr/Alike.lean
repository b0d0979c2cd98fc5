import BoundSql.Expr.Literal
import BoundSql.Expr.Path
import BoundSql.Proofs.Outcome
import BoundSql.Proofs.Value.Alike

set_option autoImplicit false

/-!
# Alike expressions

Two expressions are alike when they differ only in constants, and there only by alike values.  What
does not look at plain values comes out the same for both: the members that are read, and whether
and how a literal resolves.
-/

namespace BoundSql.Expr

/-- The expressions are the same but for constants, whose values are alike. -/
inductive Alike : Expr → Expr → Prop where
  | const {v w : Value} (alike : v.Alike w) : Alike (.const v) (.const w)
  | param (p : Parameter) : Alike (.param p) (.param p)
  | member {target other : Expr} (ref : MemberRef) (alike : Alike target other) :
      Alike (.member target ref) (.member other ref)
  | staticMember (ref : MemberRef) : Alike (.staticMember ref) (.staticMember ref)
  | binary {left right left' right' : Expr} (op : BinaryOp) (alikeLeft : Alike left left')
      (alikeRight : Alike right right') : Alike (.binary op left right) (.binary op left' right')
  | call {args others : List Expr} (declaring : TypeRef) (method : String)
      (length : args.length = others.length)
      (alike : ∀ a b, (a, b) ∈ args.zip others → Alike a b) :
      Alike (.call declaring method args) (.call declaring method others)
  | lambda {body other : Expr} (p : Parameter) (returns : TypeRef) (shaper : Option RowFunction)
      (alike : Alike body other) :
      Alike (.lambda p returns body shaper) (.lambda p returns other shaper)
  | record {bindings others : List (MemberRef × Expr)} (type : TypeRef)
      (length : bindings.length = others.length)
      (refs : ∀ a b, (a, b) ∈ bindings.zip others → a.1 = b.1)
      (alike : ∀ a b, (a, b) ∈ bindings.zip others → Alike a.2 b.2) :
      Alike (.record type bindings) (.record type others)
  | construct {args others : List Expr} (type : TypeRef) (paramNames : List String)
      (length : args.length = others.length)
      (alike : ∀ a b, (a, b) ∈ args.zip others → Alike a b) :
      Alike (.construct type paramNames args) (.construct type paramNames others)
  | cond {test ifTrue ifFalse test' ifTrue' ifFalse' : Expr} (alikeTest : Alike test test')
      (alikeTrue : Alike ifTrue ifTrue') (alikeFalse : Alike ifFalse ifFalse') :
      Alike (.cond test ifTrue ifFalse) (.cond test' ifTrue' ifFalse')

/-- Calls with two arguments, such as the operators of a chain, are alike when these are. -/
theorem Alike.call_pair {first second first' second' : Expr} (declaring : TypeRef) (method : String)
    (alikeFirst : Alike first first') (alikeSecond : Alike second second') :
    Alike (.call declaring method [first, second]) (.call declaring method [first', second']) := by
  refine .call declaring method rfl fun a b hmem => ?_
  have hpair : (a, b) = (first, first') ∨ (a, b) = (second, second') := by simpa using hmem
  rcases hpair with heq | heq <;> obtain ⟨rfl, rfl⟩ := Prod.mk.inj heq
  · exact alikeFirst
  · exact alikeSecond

/-- Lists of one length whose zipped items are related are related item by item. -/
theorem forall₂_of_zip {α : Type} {R : α → α → Prop} {xs ys : List α}
    (length : xs.length = ys.length) (h : ∀ x y, (x, y) ∈ xs.zip ys → R x y) :
    List.Forall₂ R xs ys :=
  List.forall₂_iff_zip.mpr ⟨length, fun hmem => h _ _ hmem⟩

theorem flatMap_eq_of_forall₂ {α β : Type} {f : α → List β} {xs ys : List α}
    (h : List.Forall₂ (fun x y => f x = f y) xs ys) : xs.flatMap f = ys.flatMap f := by
  induction h with
  | nil => rfl
  | cons hxy _ ih => rw [List.flatMap_cons, List.flatMap_cons, hxy, ih]

/-! ## Members -/

/-- The names of the members that are read, in visiting order. -/
def readNames (e : Expr) : List String :=
  e.preorder.filterMap fun part => part.asMember?.map (·.name)

theorem readNames_eq (e : Expr) :
    e.readNames = (e.asMember?.map (·.name)).toList ++ e.children.flatMap readNames := by
  unfold readNames
  rw [preorder_eq, List.filterMap_cons, List.filterMap_flatMap]
  cases e.asMember? <;> rfl

theorem Alike.readNames_eq {e f : Expr} (h : Alike e f) : e.readNames = f.readNames := by
  induction h with
  | const alike => rfl
  | param p => rfl
  | staticMember ref => rfl
  | member ref _ ih => simp [Expr.readNames_eq (.member _ ref), asMember?, children, ih]
  | binary op _ _ ihLeft ihRight =>
      simp [Expr.readNames_eq (.binary op _ _), asMember?, children, ihLeft, ihRight]
  | call declaring method length _ ih =>
      simpa [Expr.readNames_eq (.call declaring method _), asMember?, children] using
        flatMap_eq_of_forall₂ (forall₂_of_zip length ih)
  | lambda p returns shaper _ ih =>
      simp [Expr.readNames_eq (.lambda p returns _ shaper), asMember?, children, ih]
  | record type length _ _ ih =>
      simpa [Expr.readNames_eq (.record type _), asMember?, children, List.flatMap_map] using
        flatMap_eq_of_forall₂ (forall₂_of_zip length ih)
  | construct type paramNames length _ ih =>
      simpa [Expr.readNames_eq (.construct type paramNames _), asMember?, children] using
        flatMap_eq_of_forall₂ (forall₂_of_zip length ih)
  | cond _ _ _ ihTest ihTrue ihFalse =>
      simp [Expr.readNames_eq (.cond _ _ _), asMember?, children, ihTest, ihTrue, ihFalse]

theorem Alike.path_eq {e f : Expr} (h : Alike e f) : e.path = f.path :=
  congrArg List.reverse h.readNames_eq

theorem Alike.dottedPath?_eq {e f : Expr} (h : Alike e f) : e.dottedPath? = f.dottedPath? := by
  unfold dottedPath?
  rw [h.path_eq]

theorem Alike.asMember?_eq {e f : Expr} (h : Alike e f) : e.asMember? = f.asMember? := by
  cases h <;> rfl

theorem Alike.isRowMember_eq {e f : Expr} (h : Alike e f) (rowType : TypeRef) :
    e.isRowMember rowType = f.isRowMember rowType := by
  cases h <;> rfl

theorem Alike.asLambda?_rel {e f : Expr} (h : Alike e f) :
    Option.Rel (fun a b => a.returns = b.returns ∧ a.body.Alike b.body) e.asLambda?
      f.asLambda? := by
  cases h with
  | lambda p returns shaper alike => exact .some ⟨rfl, alike⟩
  | const _ | param _ | member _ _ | staticMember _ | binary _ _ _ | call _ _ _ _
  | record _ _ _ _ | construct _ _ _ _ | cond _ _ _ => exact .none

/-! ## Literals -/

theorem agree_readMember {v w : Value} (h : v.Alike w) (name : String) :
    Agree Value.Alike (readMember name v) (readMember name w) := by
  have hplain {u : Value} (hu : u.isPlain = true) : ∃ e, readMember name u = .error e := by
    cases u <;> first | exact ⟨_, rfl⟩ | simp [Value.isPlain] at hu
  cases h with
  | null => exact .error _ _
  | array length alike => exact .error _ _
  | @object members others keys alike =>
      have hkey := keys name
      cases hleft : members.lookup name with
      | none =>
          cases hright : others.lookup name with
          | none => simpa only [readMember, hleft, hright] using .error _ _
          | some w => simp [hleft, hright] at hkey
      | some v =>
          cases hright : others.lookup name with
          | none => simp [hleft, hright] at hkey
          | some w => simpa only [readMember, hleft, hright] using .ok (alike name v w hleft hright)
  | plain left right =>
      obtain ⟨e, he⟩ := hplain left
      obtain ⟨e', he'⟩ := hplain right
      rw [he, he']
      exact .error e e'

theorem agree_literal? {e f : Expr} (h : Alike e f) :
    Agree (Option.Rel Value.Alike) e.literal? f.literal? := by
  cases h with
  | const alike => exact .ok (.some alike)
  | staticMember ref =>
      simp only [literal?]
      cases readStatic ref with
      | error e => exact .error e e
      | ok v => exact .ok (.some (.refl v))
  | member ref alike =>
      -- A literal is at most two members away from its constant.
      cases alike with
      | const alike => exact (agree_readMember alike ref.name).map fun _ _ hread => .some hread
      | member inner alike =>
          cases alike with
          | const alike =>
              have hread := (agree_readMember alike inner.name).bind fun _ _ hread =>
                agree_readMember hread ref.name
              exact hread.map fun _ _ hread => .some hread
          | param _ | member _ _ | staticMember _ | binary _ _ _ | call _ _ _ _ | lambda _ _ _ _
          | record _ _ _ _ | construct _ _ _ _ | cond _ _ _ => exact .ok .none
      | param _ | staticMember _ | binary _ _ _ | call _ _ _ _ | lambda _ _ _ _
      | record _ _ _ _ | construct _ _ _ _ | cond _ _ _ => exact .ok .none
  | param _ | binary _ _ _ | call _ _ _ _ | lambda _ _ _ _ | record _ _ _ _
  | construct _ _ _ _ | cond _ _ _ => exact .ok .none

/-- Literals that are alike are refused together, and resolve to alike values or both to none. -/
theorem agree_resolve {e f : Expr} (h : Alike e f) :
    Agree (Option.Rel Value.Alike) e.resolve f.resolve := by
  refine (agree_literal? h).map fun value? other? hvalue => ?_
  cases hvalue with
  | none => exact .none
  | @some v w alike =>
      cases hnull : w.isNull with
      | true => simp [Option.filter, alike.isNull_eq, hnull]
      | false => simpa [Option.filter, alike.isNull_eq, hnull] using Option.Rel.some alike

end BoundSql.Expr
