import BoundSql.Proofs.Decimal.Integers
import BoundSql.Proofs.Value.Members

set_option autoImplicit false

/-!
# Values and JSON, there and back

A value is recovered from its JSON form exactly when it is built from the kinds of JSON
(`ofJson_toJson_iff`).  A JSON literal is recovered from the value that it stands for, but for its
integers beyond 64 signed bits: these become floats (`toJson_ofJson`).
-/

namespace BoundSql

/-! ## Literals -/

namespace Json

/-- The values that a text can write: integers of 64 bits, signed or unsigned, finite floats, and
objects whose keys are distinct. -/
inductive Valid : Json → Prop where
  | null : Valid .null
  | boolean (b : Bool) : Valid (.boolean b)
  | integer {n : Int} (low : -Int.pow 2 63 ≤ n) (high : n < Int.pow 2 64) : Valid (.integer n)
  | float {x : Float} (finite : x.isFinite = true) : Valid (.float x)
  | text (s : String) : Valid (.text s)
  | array {items : List Json} (valid : ∀ j ∈ items, Valid j) : Valid (.array items)
  | object {members : List (String × Json)} (distinct : (members.map (·.1)).Nodup)
      (valid : ∀ m ∈ members, Valid m.2) : Valid (.object members)

/-- The values are equal but for the order of keys. -/
inductive Same : Json → Json → Prop where
  | null : Same .null .null
  | boolean (b : Bool) : Same (.boolean b) (.boolean b)
  | integer (n : Int) : Same (.integer n) (.integer n)
  | float (x : Float) : Same (.float x) (.float x)
  | text (s : String) : Same (.text s) (.text s)
  | array {items others : List Json} (length : items.length = others.length)
      (same : ∀ j k, (j, k) ∈ items.zip others → Same j k) : Same (.array items) (.array others)
  | object {members others : List (String × Json)}
      (keys : ∀ name, (members.lookup name).isSome = (others.lookup name).isSome)
      (same : ∀ name j k, members.lookup name = some j → others.lookup name = some k →
        Same j k) : Same (.object members) (.object others)

/-- The integer stands in the value, at any depth. -/
inductive Holds (n : Int) : Json → Prop where
  | here : Holds n (.integer n)
  | item {items : List Json} {j : Json} (mem : j ∈ items) (holds : Holds n j) :
      Holds n (.array items)
  | member {members : List (String × Json)} {m : String × Json} (mem : m ∈ members)
      (holds : Holds n m.2) : Holds n (.object members)

mutual

/-- The value with its integers beyond 64 signed bits made floats. -/
def rounded : Json → Json
  | .integer n => if n < Int.pow 2 63 then .integer n else .float (Float.ofInt n)
  | .array items => .array (roundedItems items)
  | .object members => .object (roundedMembers members)
  | j => j
termination_by structural j => j

def roundedItems : List Json → List Json
  | [] => []
  | item :: items => item.rounded :: roundedItems items
termination_by structural js => js

def roundedMembers : List (String × Json) → List (String × Json)
  | [] => []
  | (name, value) :: members => (name, value.rounded) :: roundedMembers members
termination_by structural ms => ms

end

theorem roundedItems_eq_map (items : List Json) : roundedItems items = items.map rounded := by
  induction items with
  | nil => rfl
  | cons j rest ih => simp [roundedItems, ih]

theorem roundedMembers_eq_map (members : List (String × Json)) :
    roundedMembers members = members.map fun m => (m.1, m.2.rounded) := by
  induction members with
  | nil => rfl
  | cons m rest ih => simp [roundedMembers, ih]

section

variable {f g : Json → Json}

/-- Arrays made from the same items are compared item by item. -/
theorem same_array_map_iff {items : List Json} :
    Same (.array (items.map f)) (.array (items.map g)) ↔ ∀ j ∈ items, Same (f j) (g j) := by
  constructor
  · rintro (_ | _ | _ | _ | _ | ⟨-, same⟩ | _) j hj
    exact same _ _ (by rw [List.zip_map']; exact List.mem_map.mpr ⟨j, hj, rfl⟩)
  · intro h
    refine .array (by simp) fun j k hmem => ?_
    rw [List.zip_map'] at hmem
    obtain ⟨i, hi, heq⟩ := List.mem_map.mp hmem
    cases heq
    exact h i hi

/-- Objects made from the same members are compared member by member. -/
theorem same_object_iff {members left right : List (String × Json)}
    (distinct : (members.map (·.1)).Nodup)
    (hleft : ∀ name, left.lookup name = (members.lookup name).map f)
    (hright : ∀ name, right.lookup name = (members.lookup name).map g) :
    Same (.object left) (.object right) ↔ ∀ m ∈ members, Same (f m.2) (g m.2) := by
  rw [← Value.forall_lookup_iff distinct (p := fun j => Same (f j) (g j))]
  constructor
  · rintro (_ | _ | _ | _ | _ | _ | ⟨-, same⟩) name j hj
    exact same name _ _ (by rw [hleft, hj]; rfl) (by rw [hright, hj]; rfl)
  · intro h
    refine .object (fun name => by simp [hleft, hright]) fun name j k hj hk => ?_
    rw [hleft] at hj
    rw [hright] at hk
    obtain ⟨i, hi, rfl⟩ := Option.map_eq_some_iff.mp hj
    rw [hi] at hk
    cases hk
    exact h name i hi

end

theorem forall_holds_array_iff {items : List Json} {p : Int → Prop} :
    (∀ n, (array items).Holds n → p n) ↔ ∀ j ∈ items, ∀ n, j.Holds n → p n :=
  ⟨fun h _ hj n hn => h n (.item hj hn), fun h n (.item hj hn) => h _ hj n hn⟩

theorem forall_holds_object_iff {members : List (String × Json)} {p : Int → Prop} :
    (∀ n, (object members).Holds n → p n) ↔ ∀ m ∈ members, ∀ n, m.2.Holds n → p n :=
  ⟨fun h _ hm n hn => h n (.member hm hn), fun h n (.member hm hn) => h _ hm n hn⟩

end Json

namespace Value

/-! ## Integers -/

theorem ofInt_toInt (n : Int64) : ofInt n.toInt = .integer n := by
  rw [ofInt, if_pos ⟨n.le_toInt, n.toInt_lt⟩, Int64.ofInt_toInt]

theorem isFinite_ofInt {n : Int} (low : Int.pow 2 63 ≤ n) (high : n < Int.pow 2 64) :
    (Float.ofInt n).isFinite = true := by
  have hsigned : Int.pow 2 63 = 9223372036854775808 := rfl
  have hunsigned : Int.pow 2 64 = 18446744073709551616 := rfl
  obtain ⟨m, rfl⟩ := Int.eq_ofNat_of_zero_le (a := n) (by omega)
  exact Decimal.isFinite_ofNat (by omega) (by omega)

/-- An integer of 64 bits survives if it is signed; beyond, its float is finite and so not null. -/
theorem toJson_ofInt {n : Int} (low : -Int.pow 2 63 ≤ n) (high : n < Int.pow 2 64) :
    (ofInt n).toJson = (Json.integer n).rounded := by
  by_cases hsigned : n < Int.pow 2 63
  · rw [ofInt, if_pos ⟨low, hsigned⟩, toJson, Json.rounded, if_pos hsigned,
      Int64.toInt_ofInt_of_le low hsigned]
  · have hfinite := isFinite_ofInt (Int.not_lt.mp hsigned) high
    rw [ofInt, if_neg fun h => hsigned h.2, toJson, if_pos hfinite, Json.rounded, if_neg hsigned]

/-! ## From a literal and back -/

theorem toJson_ofJson_array (items : List Json) :
    (ofJson (.array items)).toJson = .array (items.map fun j => (ofJson j).toJson) := by
  rw [ofJson, toJson, ofJsonItems_eq_map, toJsonItems_eq_map, List.map_map]
  rfl

/-- An object comes back in the order of its keys, with each member under its key. -/
theorem toJson_ofJson_object {members : List (String × Json)}
    (distinct : (members.map (·.1)).Nodup) :
    ∃ others, (ofJson (.object members)).toJson = .object others ∧ (others.map (·.1)).Nodup ∧
      ∀ name, others.lookup name = (members.lookup name).map fun j => (ofJson j).toJson := by
  obtain ⟨kept, hkept⟩ : ∃ kept, ofMembers (ofJsonMembers members) = .object kept := ⟨_, rfl⟩
  refine ⟨toJsonMembers kept, by rw [ofJson, hkept, toJson], ?_, fun name => ?_⟩
  · rw [toJsonMembers_eq_map, map_fst_map_snd]
    exact (inOrder_of_ofMembers hkept).nodup
  · have hnames : ((ofJsonMembers members).map (·.1)).Nodup := by
      rwa [ofJsonMembers_eq_map, map_fst_map_snd]
    cases hkept
    rw [toJsonMembers_eq_map, lookup_map_snd, lookup_foldl_insertMember hnames,
      ofJsonMembers_eq_map, lookup_map_snd]
    simp [Function.comp_def]

/-- What comes back is again a value that a text can write. -/
theorem valid_toJson_ofJson {j : Json} (valid : j.Valid) : (ofJson j).toJson.Valid := by
  induction valid with
  | null => exact .null
  | boolean b => exact .boolean b
  | @integer n low high =>
      rw [ofJson, toJson_ofInt low high, Json.rounded]
      split
      · exact .integer low high
      · rename_i hlarge
        exact .float (isFinite_ofInt (Int.not_lt.mp hlarge) high)
  | float finite => simpa [ofJson, toJson, finite] using .float finite
  | text s => exact .text s
  | array _ ih =>
      rw [toJson_ofJson_array]
      exact .array (List.forall_mem_map.mpr ih)
  | object distinct _ ih =>
      obtain ⟨others, hothers, hdistinct, hlookup⟩ := toJson_ofJson_object distinct
      rw [hothers]
      refine .object hdistinct ((forall_lookup_iff hdistinct).mp fun name k hk => ?_)
      obtain ⟨j, hj, rfl⟩ := Option.map_eq_some_iff.mp ((hlookup name).symm.trans hk)
      exact ih _ (mem_of_lookup hj)

/-- What comes back is the literal with its large integers made floats. -/
theorem same_rounded {j : Json} (valid : j.Valid) : (ofJson j).toJson.Same j.rounded := by
  induction valid with
  | null => exact .null
  | boolean b => exact .boolean b
  | @integer n low high =>
      rw [ofJson, toJson_ofInt low high, Json.rounded]
      split
      · exact .integer n
      · exact .float _
  | @float x finite => simpa [ofJson, toJson, finite] using .float x
  | text s => exact .text s
  | array _ ih =>
      rw [toJson_ofJson_array, Json.rounded, Json.roundedItems_eq_map]
      exact Json.same_array_map_iff.mpr ih
  | object distinct _ ih =>
      obtain ⟨others, hothers, -, hlookup⟩ := toJson_ofJson_object distinct
      rw [hothers, Json.rounded, Json.roundedMembers_eq_map]
      exact (Json.same_object_iff distinct hlookup (lookup_map_snd _ _)).mpr ih

/-- The literal itself comes back exactly when none of its integers is large. -/
theorem same_self_iff {j : Json} (valid : j.Valid) :
    (ofJson j).toJson.Same j ↔ ∀ n, j.Holds n → n < Int.pow 2 63 := by
  induction valid with
  | null => exact ⟨fun _ _ h => (nomatch h), fun _ => .null⟩
  | boolean b => exact ⟨fun _ _ h => (nomatch h), fun _ => .boolean b⟩
  | @integer n low high =>
      rw [ofJson, toJson_ofInt low high, Json.rounded]
      split
      · rename_i hsigned
        exact ⟨fun _ _ h => by cases h; exact hsigned, fun _ => .integer n⟩
      · rename_i hlarge
        exact ⟨fun h => (nomatch h), fun h => absurd (h n .here) hlarge⟩
  | @float x finite =>
      refine ⟨fun _ _ h => (nomatch h), fun _ => ?_⟩
      simpa [ofJson, toJson, finite] using .float x
  | text s => exact ⟨fun _ _ h => (nomatch h), fun _ => .text s⟩
  | @array items _ ih =>
      have hitems : Json.Same (.array (items.map fun j => (ofJson j).toJson)) (.array items) ↔
          ∀ j ∈ items, (ofJson j).toJson.Same j := by
        simpa using Json.same_array_map_iff (g := id)
      rw [toJson_ofJson_array, hitems, Json.forall_holds_array_iff]
      exact forall₂_congr ih
  | @object members distinct _ ih =>
      obtain ⟨others, hothers, -, hlookup⟩ := toJson_ofJson_object distinct
      have hmembers : Json.Same (.object others) (.object members) ↔
          ∀ m ∈ members, (ofJson m.2).toJson.Same m.2 :=
        Json.same_object_iff (g := id) distinct hlookup (by simp)
      rw [hothers, hmembers, Json.forall_holds_object_iff]
      exact forall₂_congr ih

/-- A literal comes back from the value that it stands for as a value that a text can write, equal
to the literal but for the order of keys and for its integers beyond 64 signed bits, which have
become floats; so the literal itself comes back exactly when it holds no such integer. -/
theorem toJson_ofJson {j : Json} (valid : j.Valid) :
    (ofJson j).toJson.Valid ∧ (ofJson j).toJson.Same j.rounded ∧
      ((ofJson j).toJson.Same j ↔ ∀ n, j.Holds n → n < Int.pow 2 63) :=
  ⟨valid_toJson_ofJson valid, same_rounded valid, same_self_iff valid⟩

/-- A filter on ids around the largest signed integer. -/
def largeIds : Json :=
  .object [("ids", .array [.integer 9223372036854775807, .integer 9223372036854775809]),
    ("active", .boolean true)]

/-- The largest signed integer comes back; the second one beyond it comes back as a float, which is
that of its predecessor. -/
theorem toJson_ofJson_largeIds :
    largeIds.Valid ∧
      (ofJson largeIds).toJson.Same
        (.object [("ids", .array [.integer 9223372036854775807,
          .float (Float.ofInt 9223372036854775808)]), ("active", .boolean true)]) ∧
      ¬(ofJson largeIds).toJson.Same largeIds := by
  have hids : Json.Valid (.array [.integer 9223372036854775807, .integer 9223372036854775809]) :=
    .array (List.forall_mem_cons.mpr ⟨.integer (by decide) (by decide),
      List.forall_mem_singleton.mpr (.integer (by decide) (by decide))⟩)
  have valid : largeIds.Valid :=
    .object (by decide) (List.forall_mem_cons.mpr ⟨hids,
      List.forall_mem_singleton.mpr (.boolean true)⟩)
  have hfloat : Float.ofInt 9223372036854775809 = Float.ofInt 9223372036854775808 := by decide
  obtain ⟨-, hrounded, hself⟩ := toJson_ofJson valid
  refine ⟨valid, hfloat ▸ hrounded, fun h => ?_⟩
  have hbound := hself.mp h 9223372036854775809
    (.member List.mem_cons_self (.item (List.mem_cons_of_mem _ List.mem_cons_self) .here))
  exact absurd hbound (by decide)

/-! ## From a value and back -/

/-- The values that are built from the kinds of JSON; floats are finite, and an object has its
members in order. -/
inductive Expressible : Value → Prop where
  | null : Expressible .null
  | boolean (b : Bool) : Expressible (.boolean b)
  | integer (n : Int64) : Expressible (.integer n)
  | float {x : Float} (finite : x.isFinite = true) : Expressible (.float x)
  | text (s : String) : Expressible (.text s)
  | array {items : List Value} (expressible : ∀ v ∈ items, Expressible v) :
      Expressible (.array items)
  | object {members : List (String × Value)} (order : InOrder members)
      (expressible : ∀ m ∈ members, Expressible m.2) : Expressible (.object members)

theorem ofJson_toJson_array_iff (items : List Value) :
    ofJson (toJson (.array items)) = .array items ↔ ∀ v ∈ items, ofJson v.toJson = v := by
  rw [toJson, ofJson, toJsonItems_eq_map, ofJsonItems_eq_map, List.map_map, Value.array.injEq]
  exact map_eq_self_iff

/-- An object whose members are recovered is recovered if they stand in order; and what is recovered
always does. -/
theorem ofJson_toJson_object_iff (members : List (String × Value)) :
    ofJson (toJson (.object members)) = .object members ↔
      InOrder members ∧ ∀ m ∈ members, ofJson m.2.toJson = m.2 := by
  have hmembers : ofJsonMembers (toJsonMembers members) =
      members.map fun m => (m.1, ofJson m.2.toJson) := by
    rw [ofJsonMembers_eq_map, toJsonMembers_eq_map, List.map_map]
    rfl
  rw [toJson, ofJson, hmembers]
  have hkept (order : InOrder members) :
      ofMembers (members.map fun m => (m.1, ofJson m.2.toJson)) =
        .object (members.map fun m => (m.1, ofJson m.2.toJson)) :=
    ofMembers_of_inOrder (List.pairwise_map.mpr order)
  have hsame : members.map (fun m => (m.1, ofJson m.2.toJson)) = members ↔
      ∀ m ∈ members, ofJson m.2.toJson = m.2 := by
    rw [map_eq_self_iff]
    exact forall₂_congr fun m _ => by rw [Prod.ext_iff]; simp
  constructor
  · intro h
    have order := inOrder_of_ofMembers h
    rw [hkept order, Value.object.injEq, hsame] at h
    exact ⟨order, h⟩
  · rintro ⟨order, h⟩
    rw [hkept order, hsame.mpr h]

/-- The value is recovered from its JSON form if it is built from the kinds of JSON. -/
theorem Expressible.ofJson_toJson {v : Value} (h : v.Expressible) : ofJson v.toJson = v := by
  induction h with
  | null => rfl
  | boolean b => rfl
  | integer n => exact ofInt_toInt n
  | float finite => rw [toJson, if_pos finite, ofJson]
  | text s => rfl
  | array _ ih => exact (ofJson_toJson_array_iff _).mpr ih
  | object order _ ih => exact (ofJson_toJson_object_iff _).mpr ⟨order, ih⟩

theorem expressible_of_ofJson_toJson : ∀ {v : Value}, ofJson v.toJson = v → v.Expressible
  | .null, _ => .null
  | .boolean b, _ => .boolean b
  | .integer n, _ => .integer n
  | .float x, h => by
      rw [toJson] at h
      split at h
      · exact .float ‹_›
      · cases h
  | .decimal d, h => by
      rw [toJson] at h
      split at h <;> cases h
  | .text s, _ => .text s
  | .array items, h => by
      refine .array fun v hv => ?_
      have hlt := List.sizeOf_lt_of_mem hv
      exact expressible_of_ofJson_toJson ((ofJson_toJson_array_iff items).mp h v hv)
  | .object members, h => by
      obtain ⟨order, hmembers⟩ := (ofJson_toJson_object_iff members).mp h
      refine .object order fun m hm => ?_
      have hlt := List.sizeOf_lt_of_mem hm
      have hpair : sizeOf m = 1 + sizeOf m.1 + sizeOf m.2 := rfl
      exact expressible_of_ofJson_toJson (hmembers m hm)
termination_by v => sizeOf v

/-- A value is recovered from its JSON form exactly when it is built from the kinds of JSON: null,
booleans, integers, finite floats, texts, arrays and objects.  No integer is taken for a float, nor
an integral float for an integer. -/
theorem ofJson_toJson_iff (v : Value) : ofJson v.toJson = v ↔ v.Expressible :=
  ⟨expressible_of_ofJson_toJson, Expressible.ofJson_toJson⟩

end Value

end BoundSql
