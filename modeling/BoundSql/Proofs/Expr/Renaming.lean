import BoundSql.Proofs.Expr.Alike
import BoundSql.Proofs.Expr.Parts
import BoundSql.Query.Root
import Mathlib.Data.List.Zip

set_option autoImplicit false

/-!
# Renamed parameters

Two expressions are renamed when they are the same but for the names of the parameters of lambdas
and of the references to parameters.  Every change of the name of a lambda's parameter, together
with the references to it, gives a renamed expression.  The parts of renamed expressions are renamed
place by place, and what is read from members and constants is the same for both.
-/

namespace BoundSql.Expr

/-- The expressions are the same but for the names of parameters. -/
inductive Renamed : Expr → Expr → Prop where
  | const (v : Value) : Renamed (.const v) (.const v)
  | param (name name' : String) (type : TypeRef) :
      Renamed (.param ⟨name, type⟩) (.param ⟨name', type⟩)
  | member {target other : Expr} (ref : MemberRef) (renamed : Renamed target other) :
      Renamed (.member target ref) (.member other ref)
  | staticMember (ref : MemberRef) : Renamed (.staticMember ref) (.staticMember ref)
  | binary {left right left' right' : Expr} (op : BinaryOp) (renamedLeft : Renamed left left')
      (renamedRight : Renamed right right') :
      Renamed (.binary op left right) (.binary op left' right')
  | call {args others : List Expr} (declaring : TypeRef) (method : String)
      (length : args.length = others.length)
      (renamed : ∀ a b, (a, b) ∈ args.zip others → Renamed a b) :
      Renamed (.call declaring method args) (.call declaring method others)
  | lambda {body other : Expr} (name name' : String) (type returns : TypeRef)
      (shaper : Option RowFunction) (renamed : Renamed body other) :
      Renamed (.lambda ⟨name, type⟩ returns body shaper)
        (.lambda ⟨name', type⟩ returns other shaper)
  | record {bindings others : List (MemberRef × Expr)} (type : TypeRef)
      (length : bindings.length = others.length)
      (refs : ∀ a b, (a, b) ∈ bindings.zip others → a.1 = b.1)
      (renamed : ∀ a b, (a, b) ∈ bindings.zip others → Renamed a.2 b.2) :
      Renamed (.record type bindings) (.record type others)
  | construct {args others : List Expr} (type : TypeRef) (paramNames : List String)
      (length : args.length = others.length)
      (renamed : ∀ a b, (a, b) ∈ args.zip others → Renamed a b) :
      Renamed (.construct type paramNames args) (.construct type paramNames others)
  | cond {test ifTrue ifFalse test' ifTrue' ifFalse' : Expr} (renamedTest : Renamed test test')
      (renamedTrue : Renamed ifTrue ifTrue') (renamedFalse : Renamed ifFalse ifFalse') :
      Renamed (.cond test ifTrue ifFalse) (.cond test' ifTrue' ifFalse')

namespace Renamed

variable {e f : Expr}

theorem call_of_forall₂ {args others : List Expr} (declaring : TypeRef) (method : String)
    (h : List.Forall₂ Renamed args others) :
    (Expr.call declaring method args).Renamed (.call declaring method others) :=
  .call declaring method h.length_eq fun _ _ hmem => (List.forall₂_iff_zip.mp h).2 hmem

theorem record_of_forall₂ {bindings others : List (MemberRef × Expr)} (type : TypeRef)
    (h : List.Forall₂ (fun a b => a.1 = b.1 ∧ a.2.Renamed b.2) bindings others) :
    (Expr.record type bindings).Renamed (.record type others) :=
  .record type h.length_eq (fun _ _ hmem => ((List.forall₂_iff_zip.mp h).2 hmem).1)
    fun _ _ hmem => ((List.forall₂_iff_zip.mp h).2 hmem).2

theorem mem_zip_swap {α : Type} {xs ys : List α} {x y : α} (h : (x, y) ∈ xs.zip ys) :
    (y, x) ∈ ys.zip xs := by
  rw [← List.zip_swap]
  exact List.mem_map.mpr ⟨(x, y), h, rfl⟩

theorem symm (h : e.Renamed f) : f.Renamed e := by
  induction h with
  | const v => exact .const v
  | param name name' type => exact .param name' name type
  | member ref _ ih => exact .member ref ih
  | staticMember ref => exact .staticMember ref
  | binary op _ _ ihLeft ihRight => exact .binary op ihLeft ihRight
  | call declaring method length _ ih =>
      exact .call declaring method length.symm fun a b hmem => ih b a (mem_zip_swap hmem)
  | lambda name name' type returns shaper _ ih => exact .lambda name' name type returns shaper ih
  | record type length refs _ ih =>
      exact .record type length.symm (fun a b hmem => (refs b a (mem_zip_swap hmem)).symm)
        fun a b hmem => ih b a (mem_zip_swap hmem)
  | construct type paramNames length _ ih =>
      exact .construct type paramNames length.symm fun a b hmem => ih b a (mem_zip_swap hmem)
  | cond _ _ _ ihTest ihTrue ihFalse => exact .cond ihTest ihTrue ihFalse

/-! ## Parts -/

theorem forall₂_children (h : e.Renamed f) : List.Forall₂ Renamed e.children f.children := by
  cases h with
  | const _ | param _ _ _ | staticMember _ => exact .nil
  | member _ renamed => exact .cons renamed .nil
  | binary _ renamedLeft renamedRight => exact .cons renamedLeft (.cons renamedRight .nil)
  | call _ _ length renamed => exact forall₂_of_zip length renamed
  | lambda _ _ _ _ _ renamed => exact .cons renamed .nil
  | record type length refs renamed =>
      rw [children, children, List.forall₂_map_left_iff, List.forall₂_map_right_iff]
      exact forall₂_of_zip length renamed
  | construct _ _ length renamed => exact forall₂_of_zip length renamed
  | cond renamedTest renamedTrue renamedFalse =>
      exact .cons renamedTest (.cons renamedTrue (.cons renamedFalse .nil))

/-- The parts are renamed place by place. -/
theorem forall₂_preorder {e f : Expr} (h : e.Renamed f) :
    List.Forall₂ Renamed e.preorder f.preorder := by
  rw [preorder_eq e, preorder_eq f]
  refine .cons h (List.rel_flatMap (R := fun a b => List.Forall₂ Renamed a.preorder b.preorder) ?_
    fun _ _ hparts => hparts)
  obtain ⟨length, hchildren⟩ := List.forall₂_iff_zip.mp h.forall₂_children
  refine forall₂_of_zip length fun a b hmem => ?_
  have hsize := sizeOf_lt_of_mem_children (List.of_mem_zip hmem).1
  exact (hchildren hmem).forall₂_preorder
termination_by sizeOf e

/-! ## What is read -/

/-- What each part has for itself comes out the same in all places. -/
theorem map_preorder_eq {β : Type} {g : Expr → β} (hg : ∀ {a b : Expr}, a.Renamed b → g a = g b)
    (h : e.Renamed f) : e.preorder.map g = f.preorder.map g :=
  List.forall₂_eq_eq_eq ▸ List.forall₂_map_left_iff.mpr
    (List.forall₂_map_right_iff.mpr (h.forall₂_preorder.imp fun _ _ => hg))

theorem asConst?_eq (h : e.Renamed f) : e.asConst? = f.asConst? := by
  cases h <;> rfl

theorem asMember?_eq (h : e.Renamed f) : e.asMember? = f.asMember? := by
  cases h <;> rfl

theorem isRowMember_eq (h : e.Renamed f) (rowType : TypeRef) :
    e.isRowMember rowType = f.isRowMember rowType := by
  cases h <;> rfl

theorem firstConst?_eq (h : e.Renamed f) : e.firstConst? = f.firstConst? := by
  have hmap := congrArg (List.findSome? id) (h.map_preorder_eq asConst?_eq)
  rwa [List.findSome?_map, List.findSome?_map] at hmap

theorem root_eq (h : e.Renamed f) : e.root = f.root := by
  unfold root
  rw [h.firstConst?_eq]

theorem path_eq (h : e.Renamed f) : e.path = f.path := by
  have hnames := h.map_preorder_eq fun hpart =>
    congrArg (Option.map MemberRef.name) hpart.asMember?_eq
  have hmap := congrArg (List.filterMap id) hnames
  rw [List.filterMap_map, List.filterMap_map] at hmap
  exact congrArg List.reverse hmap

theorem dottedPath?_eq (h : e.Renamed f) : e.dottedPath? = f.dottedPath? := by
  unfold dottedPath?
  rw [h.path_eq]

/-- A literal is at most two members away from its constant, so it holds no parameter. -/
theorem literal?_eq (h : e.Renamed f) : e.literal? = f.literal? := by
  cases h with
  | member ref renamed =>
      cases renamed with
      | member inner renamed => cases renamed <;> rfl
      | const _ | param _ _ _ | staticMember _ | binary _ _ _ | call _ _ _ _ | lambda _ _ _ _ _ _
      | record _ _ _ _ | construct _ _ _ _ | cond _ _ _ => rfl
  | const _ | param _ _ _ | staticMember _ | binary _ _ _ | call _ _ _ _ | lambda _ _ _ _ _ _
  | record _ _ _ _ | construct _ _ _ _ | cond _ _ _ => rfl

theorem resolve_eq (h : e.Renamed f) : e.resolve = f.resolve := by
  unfold resolve
  rw [h.literal?_eq]

end Renamed

end BoundSql.Expr
