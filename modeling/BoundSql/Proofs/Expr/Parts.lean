import BoundSql.Expr.Path

set_option autoImplicit false

/-!
# Parts of expressions

What is read in a part of an expression is read in the expression.
-/

namespace BoundSql.Expr

variable {e child part : Expr} {name : String}

theorem self_mem_preorder (e : Expr) : e ∈ e.preorder := by
  rw [preorder_eq]
  exact List.mem_cons_self

theorem preorder_subset_of_child (h : child ∈ e.children) : child.preorder ⊆ e.preorder := by
  intro part hpart
  rw [preorder_eq e]
  exact List.mem_cons_of_mem e (List.mem_flatMap.mpr ⟨child, h, hpart⟩)

theorem body_preorder_subset {f : Lambda} (h : e.asLambda? = some f) :
    f.body.preorder ⊆ e.preorder := by
  cases e with
  | lambda parameter returns body shaper =>
      obtain rfl := Option.some.inj h
      exact preorder_subset_of_child List.mem_cons_self
  | _ => simp [asLambda?] at h

theorem sizeOf_lt_of_mem_children (h : child ∈ e.children) : sizeOf child < sizeOf e := by
  cases e with
  | const value => simp [children] at h
  | param p => simp [children] at h
  | staticMember ref => simp [children] at h
  | member target ref =>
      obtain rfl : child = target := by simpa [children] using h
      simp only [member.sizeOf_spec]
      omega
  | binary op left right =>
      have hchild : child = left ∨ child = right := by simpa [children] using h
      rcases hchild with rfl | rfl <;> simp only [binary.sizeOf_spec] <;> omega
  | call declaring method args =>
      have hlt := List.sizeOf_lt_of_mem (show child ∈ args from h)
      simp only [call.sizeOf_spec]
      omega
  | lambda p returns body shaper =>
      obtain rfl : child = body := by simpa [children] using h
      simp only [lambda.sizeOf_spec]
      omega
  | record type bindings =>
      obtain ⟨⟨ref, arg⟩, hbinding, rfl⟩ := List.mem_map.mp (show child ∈ bindings.map (·.2) from h)
      have hlt := List.sizeOf_lt_of_mem hbinding
      simp only [record.sizeOf_spec, Prod.mk.sizeOf_spec] at hlt ⊢
      omega
  | construct type paramNames args =>
      have hlt := List.sizeOf_lt_of_mem (show child ∈ args from h)
      simp only [construct.sizeOf_spec]
      omega
  | cond test ifTrue ifFalse =>
      have hchild : child = test ∨ child = ifTrue ∨ child = ifFalse := by
        simpa [children] using h
      rcases hchild with rfl | rfl | rfl <;> simp only [cond.sizeOf_spec] <;> omega

/-- A part of a part is a part. -/
theorem preorder_subset_of_mem : ∀ {e : Expr}, part ∈ e.preorder → part.preorder ⊆ e.preorder := by
  intro e h
  rw [preorder_eq] at h
  rcases List.mem_cons.mp h with rfl | h
  · exact fun _ hmem => hmem
  · obtain ⟨child, hchild, h⟩ := List.mem_flatMap.mp h
    have hlt := sizeOf_lt_of_mem_children hchild
    exact fun _ hmem => preorder_subset_of_child hchild (preorder_subset_of_mem h hmem)
termination_by e => sizeOf e

theorem mem_path_iff :
    name ∈ e.path ↔ ∃ part ∈ e.preorder, ∃ ref, part.asMember? = some ref ∧ ref.name = name := by
  simp [path, List.mem_filterMap, Option.map_eq_some_iff]

theorem name_mem_path {ref : MemberRef} (h : e.asMember? = some ref) : ref.name ∈ e.path :=
  mem_path_iff.mpr ⟨e, self_mem_preorder e, ref, h, rfl⟩

theorem path_subset_of_child (h : child ∈ e.children) : child.path ⊆ e.path := by
  intro name hname
  obtain ⟨part, hpart, ref, href, rfl⟩ := mem_path_iff.mp hname
  exact mem_path_iff.mpr ⟨part, preorder_subset_of_child h hpart, ref, href, rfl⟩

theorem path_eq_nil_iff : e.path = [] ↔ ∀ part ∈ e.preorder, part.asMember? = none := by
  simp [path]

/-- The path of an expression goes through its parts from the last to the first, and ends in the
name of the member that it reads itself. -/
theorem path_eq (e : Expr) :
    e.path = e.children.reverse.flatMap path ++ (e.asMember?.map (·.name)).toList := by
  have hparts (es : List Expr) : ((es.flatMap preorder).filterMap fun part =>
      part.asMember?.map (·.name)).reverse = es.reverse.flatMap path := by
    induction es with
    | nil => rfl
    | cons first rest ih => simp [ih, path]
  rw [← hparts, path, preorder_eq e, List.filterMap_cons]
  cases e.asMember? <;> simp

/-- Only a member that is read can be a column. -/
theorem isRowMember_eq_false_of_asMember?_eq_none (rowType : TypeRef) (h : e.asMember? = none) :
    e.isRowMember rowType = false := by
  cases e with
  | member target ref => simp [asMember?] at h
  | _ => rfl

theorem exists_asMember?_of_isRowMember {rowType : TypeRef} (own : e.isRowMember rowType = true) :
    ∃ ref, e.asMember? = some ref := by
  refine Option.ne_none_iff_exists'.mp fun hnone => ?_
  rw [isRowMember_eq_false_of_asMember?_eq_none rowType hnone] at own
  contradiction

/-- The members read off an expression, one after another. -/
def readAll (target : Expr) (refs : List MemberRef) : Expr := refs.foldl member target

/-- The path of a chain of members is their names in order. -/
theorem path_readAll (target : Expr) (refs : List MemberRef) :
    (target.readAll refs).path = target.path ++ refs.map (·.name) := by
  induction refs generalizing target with
  | nil => simp [readAll]
  | cons ref refs ih =>
      have hrest := ih (.member target ref)
      rw [path_member] at hrest
      simpa [readAll] using hrest

end BoundSql.Expr
