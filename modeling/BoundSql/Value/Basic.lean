import BoundSql.Decimal.Fixed
import BoundSql.Guid
import BoundSql.Moment
import BoundSql.ScalarType

set_option autoImplicit false

/-!
# Values and types

A value can stand as a constant in an expression or be bound to a placeholder.  A type describes
rows and members.  The two refer to each other: a record type has static members, which are
values, and a query descriptor, which is a value, has the type of its rows.
-/

namespace BoundSql

mutual

/-- The type of a value, a member or a row. -/
inductive TypeRef where
  | scalar (type : ScalarType)
  /-- A type with null added. -/
  | nullable (inner : TypeRef)
  | list (element : TypeRef)
  /-- A record with its properties in declaration order, and its static members. -/
  | record (name : String) (properties : List (String × TypeRef)) (statics : List (String × Value))
  /-- A type of which only the name is known. -/
  | named (name : String)

/-- A value. -/
inductive Value where
  | null
  | boolean (b : Bool)
  | integer (n : Int64)
  | float (x : Float)
  | decimal (d : Decimal.Fixed)
  | text (s : String)
  | moment (m : Moment)
  | guid (g : Guid)
  | array (items : List Value)
  /-- Named members in increasing order of their names, each name once. -/
  | object (members : List (String × Value))
  /-- A query of a dataset with rows of the given type. -/
  | query (dataset : String) (element : TypeRef)

end

instance : Inhabited Value := ⟨.null⟩
instance : Inhabited TypeRef := ⟨.named ""⟩

/-! ## Equality

Floats are compared as numbers, so a not-a-number differs from itself; decimals as numbers; moments
as instants.  All else is compared by structure. -/

mutual

/-- Equality of types by structure. -/
def TypeRef.beq : TypeRef → TypeRef → Bool
  | .scalar a, .scalar b => a == b
  | .nullable a, .nullable b => a.beq b
  | .list a, .list b => a.beq b
  | .record n p s, .record m q t => n == m && TypeRef.beqProperties p q && Value.beqMembers s t
  | .named a, .named b => a == b
  | _, _ => false
termination_by structural a => a

/-- Equality of values. -/
def Value.beq : Value → Value → Bool
  | .null, .null => true
  | .boolean a, .boolean b => a == b
  | .integer a, .integer b => a == b
  | .float a, .float b => a == b
  | .decimal a, .decimal b => a == b
  | .text a, .text b => a == b
  | .moment a, .moment b => a == b
  | .guid a, .guid b => a == b
  | .array a, .array b => Value.beqItems a b
  | .object a, .object b => Value.beqMembers a b
  | .query a t, .query b u => a == b && t.beq u
  | _, _ => false
termination_by structural a => a

/-- Equality of the properties of two records, in order. -/
def TypeRef.beqProperties : List (String × TypeRef) → List (String × TypeRef) → Bool
  | [], [] => true
  | (k, a) :: as, (l, b) :: bs => k == l && a.beq b && TypeRef.beqProperties as bs
  | _, _ => false
termination_by structural a => a

/-- Equality of the items of two arrays, in order. -/
def Value.beqItems : List Value → List Value → Bool
  | [], [] => true
  | a :: as, b :: bs => a.beq b && Value.beqItems as bs
  | _, _ => false
termination_by structural a => a

/-- Equality of named members, in order. -/
def Value.beqMembers : List (String × Value) → List (String × Value) → Bool
  | [], [] => true
  | (k, a) :: as, (l, b) :: bs => k == l && a.beq b && Value.beqMembers as bs
  | _, _ => false
termination_by structural a => a

end

instance : BEq TypeRef := ⟨TypeRef.beq⟩
instance : BEq Value := ⟨Value.beq⟩

namespace Value

/-! ## Objects -/

/-- The members with one more, at its place in the order of names; it replaces a member of its
name. -/
def insertMember (name : String) (value : Value) :
    List (String × Value) → List (String × Value)
  | [] => [(name, value)]
  | (k, v) :: rest =>
    if name < k then (name, value) :: (k, v) :: rest
    else if name = k then (name, value) :: rest
    else (k, v) :: insertMember name value rest

/-- The object with the given members, a later one replacing an earlier one of its name. -/
def ofMembers (members : List (String × Value)) : Value :=
  .object (members.foldl (fun acc member => insertMember member.1 member.2 acc) [])

/-- The names stand in increasing order, so that each occurs once. -/
def InOrder (members : List (String × Value)) : Prop := members.Pairwise fun a b => a.1 < b.1

theorem mem_insertMember {name : String} {value : Value} {members : List (String × Value)}
    {m : String × Value} (h : m ∈ insertMember name value members) :
    m = (name, value) ∨ m ∈ members := by
  induction members with
  | nil => simpa [insertMember] using h
  | cons head rest ih =>
    obtain ⟨k, v⟩ := head
    unfold insertMember at h
    split at h
    · simpa using h
    · split at h
      · rcases List.mem_cons.1 h with h | h
        · exact .inl h
        · exact .inr (List.mem_cons_of_mem _ h)
      · rcases List.mem_cons.1 h with h | h
        · exact .inr (h ▸ List.mem_cons_self)
        · exact (ih h).imp id (List.mem_cons_of_mem _)

/-- Inserting a member keeps the order, and so its name occurs once. -/
theorem inOrder_insertMember {name : String} {value : Value} {members : List (String × Value)}
    (h : InOrder members) : InOrder (insertMember name value members) := by
  induction members with
  | nil => simp [insertMember, InOrder]
  | cons head rest ih =>
    obtain ⟨k, v⟩ := head
    obtain ⟨hfirst, hrest⟩ := List.pairwise_cons.1 h
    unfold insertMember
    split
    · rename_i hlt
      refine List.pairwise_cons.2 ⟨fun m hm => ?_, h⟩
      rcases List.mem_cons.1 hm with rfl | hm
      · exact hlt
      · exact String.lt_trans hlt (hfirst m hm)
    · rename_i hlt
      split
      · rename_i heq
        exact List.pairwise_cons.2 ⟨fun m hm => heq ▸ hfirst m hm, hrest⟩
      · rename_i hne
        refine List.pairwise_cons.2 ⟨fun m hm => ?_, ih hrest⟩
        rcases mem_insertMember hm with rfl | hm
        · rcases String.le_total name k with hle | hle
          · exact absurd (String.le_antisymm hle (String.not_lt.1 hlt)) hne
          · refine Decidable.byContradiction fun hnot => hne ?_
            exact String.le_antisymm (String.not_lt.1 hnot) hle
        · exact hfirst m hm

/-- Members inserted one after another stay in order. -/
theorem inOrder_foldl_insertMember (members acc : List (String × Value)) (h : InOrder acc) :
    InOrder (members.foldl (fun acc member => insertMember member.1 member.2 acc) acc) := by
  induction members generalizing acc with
  | nil => exact h
  | cons m ms ih => exact ih _ (inOrder_insertMember h)

/-- The member that was inserted last under a name is the one that is found there. -/
theorem lookup_insertMember_self (name : String) (value : Value)
    (members : List (String × Value)) :
    (insertMember name value members).lookup name = some value := by
  induction members with
  | nil => simp [insertMember]
  | cons head rest ih =>
    obtain ⟨k, v⟩ := head
    unfold insertMember
    split
    · simp
    · split
      · simp
      · rename_i hne
        have : (name == k) = false := by simp [hne]
        simp [List.lookup_cons, this, ih]

/-- The members of other names are not touched. -/
theorem lookup_insertMember_of_ne {name other : String} (h : other ≠ name) (value : Value)
    (members : List (String × Value)) :
    (insertMember name value members).lookup other = members.lookup other := by
  have hne : (other == name) = false := by simp [h]
  induction members with
  | nil => simp [insertMember, List.lookup_cons, hne]
  | cons head rest ih =>
    obtain ⟨k, v⟩ := head
    unfold insertMember
    split
    · simp [List.lookup_cons, hne]
    · split
      · rename_i heq
        subst heq
        simp [List.lookup_cons, hne]
      · simp only [List.lookup_cons, ih]

/-- The member of an object; other values have none. -/
def member? (name : String) : Value → Option Value
  | .object members => members.lookup name
  | _ => none

def isNull : Value → Bool
  | .null => true
  | _ => false

def asText? : Value → Option String
  | .text s => some s
  | _ => none

/-- The word for the kind of a value in messages. -/
def kind : Value → String
  | .null => "null"
  | .boolean _ => "boolean"
  | .integer _ => "integer"
  | .float _ => "float"
  | .decimal _ => "decimal"
  | .text _ => "string"
  | .moment _ => "datetime"
  | .guid _ => "guid"
  | .array _ => "array"
  | .object _ => "object"
  | .query _ _ => "query"

theorem isNull_iff {v : Value} : v.isNull = true ↔ v = .null := by cases v <;> simp [isNull]

end Value

end BoundSql
