import BoundSql.Value.Json

set_option autoImplicit false

/-!
# Members by name

What is found under a name when members are converted one by one, and when they are collected in
an object.
-/

namespace BoundSql.Value

variable {α β : Type}

/-! ## Lookup -/

theorem lookup_map_snd (f : α → β) (members : List (String × α)) (name : String) :
    (members.map fun m => (m.1, f m.2)).lookup name = (members.lookup name).map f := by
  induction members with
  | nil => rfl
  | cons m rest ih =>
      obtain ⟨k, v⟩ := m
      simp only [List.map_cons, List.lookup_cons]
      cases name == k <;> simp [ih]

theorem map_fst_map_snd (f : α → β) (members : List (String × α)) :
    (members.map fun m => (m.1, f m.2)).map (·.1) = members.map (·.1) := by
  simp [Function.comp_def]

theorem mem_of_lookup {members : List (String × α)} {name : String} {value : α}
    (h : members.lookup name = some value) : (name, value) ∈ members := by
  obtain ⟨before, after, hmembers, -⟩ := List.lookup_eq_some_iff.mp h
  simp [hmembers]

theorem lookup_eq_none_of_notMem {members : List (String × α)} {name : String}
    (h : name ∉ members.map (·.1)) : members.lookup name = none := by
  refine List.lookup_eq_none_iff.mpr fun m hm => bne_iff_ne.mpr fun heq => h ?_
  exact heq ▸ List.mem_map_of_mem hm

/-- No member is hidden behind another one of its name when the names are distinct. -/
theorem lookup_of_mem {members : List (String × α)} (distinct : (members.map (·.1)).Nodup)
    {name : String} {value : α} (h : (name, value) ∈ members) :
    members.lookup name = some value := by
  induction members with
  | nil => cases h
  | cons m rest ih =>
      obtain ⟨k, v⟩ := m
      obtain ⟨hfresh, hrest⟩ := List.nodup_cons.mp distinct
      rcases List.mem_cons.mp h with heq | hmem
      · cases heq
        simp
      · have hne : (name == k) = false := beq_eq_false_iff_ne.mpr fun heq =>
          hfresh (List.mem_map.mpr ⟨(name, value), hmem, heq⟩)
        rw [List.lookup_cons, hne]
        exact ih hrest hmem

theorem forall_lookup_iff {members : List (String × α)} (distinct : (members.map (·.1)).Nodup)
    {p : α → Prop} :
    (∀ name value, members.lookup name = some value → p value) ↔ ∀ m ∈ members, p m.2 :=
  ⟨fun h m hm => h m.1 m.2 (lookup_of_mem distinct hm), fun h _ _ hv => h _ (mem_of_lookup hv)⟩

/-! ## Objects -/

/-- Of members with distinct names, each is found in the object that they make. -/
theorem lookup_foldl_insertMember {members : List (String × Value)}
    (distinct : (members.map (·.1)).Nodup) (acc : List (String × Value)) (name : String) :
    (members.foldl (fun acc m => insertMember m.1 m.2 acc) acc).lookup name =
      (members.lookup name).or (acc.lookup name) := by
  induction members generalizing acc with
  | nil => rfl
  | cons m rest ih =>
      obtain ⟨k, v⟩ := m
      obtain ⟨hfresh, hrest⟩ := List.nodup_cons.mp distinct
      rw [List.foldl_cons, ih hrest]
      by_cases heq : name = k
      · subst heq
        simp [lookup_eq_none_of_notMem hfresh, lookup_insertMember_self]
      · have hne : (name == k) = false := beq_eq_false_iff_ne.mpr heq
        rw [lookup_insertMember_of_ne heq, List.lookup_cons, hne]

theorem insertMember_of_forall_lt {members : List (String × Value)} {name : String}
    (h : ∀ m ∈ members, m.1 < name) (value : Value) :
    insertMember name value members = members ++ [(name, value)] := by
  induction members with
  | nil => rfl
  | cons m rest ih =>
      have hlt : m.1 < name := h m List.mem_cons_self
      rw [insertMember, if_neg (String.lt_asymm hlt), if_neg (String.ne_of_lt hlt).symm,
        ih fun x hx => h x (List.mem_cons_of_mem _ hx)]
      rfl

/-- Members in order are put behind one another. -/
theorem foldl_insertMember_of_inOrder {acc members : List (String × Value)}
    (h : InOrder (acc ++ members)) :
    members.foldl (fun acc m => insertMember m.1 m.2 acc) acc = acc ++ members := by
  induction members generalizing acc with
  | nil => simp
  | cons m rest ih =>
      have hlast : ∀ x ∈ acc, x.1 < m.1 := fun x hx =>
        (List.pairwise_append.mp h).2.2 x hx m List.mem_cons_self
      rw [List.foldl_cons, insertMember_of_forall_lt hlast, ih (by simpa using h)]
      simp

/-- Members in order are those of the object that they make. -/
theorem ofMembers_of_inOrder {members : List (String × Value)} (h : InOrder members) :
    ofMembers members = .object members :=
  congrArg Value.object (foldl_insertMember_of_inOrder h)

theorem inOrder_of_ofMembers {members others : List (String × Value)}
    (h : ofMembers members = .object others) : InOrder others := by
  obtain rfl : _ = others := Value.object.inj h
  exact inOrder_foldl_insertMember members [] .nil

theorem InOrder.nodup {members : List (String × Value)} (h : InOrder members) :
    (members.map (·.1)).Nodup :=
  List.pairwise_map.mpr (h.imp String.ne_of_lt)

/-! ## Conversion -/

theorem map_eq_self_iff {f : α → α} {l : List α} : l.map f = l ↔ ∀ a ∈ l, f a = a := by
  simpa using List.map_inj_left (l := l) (f := f) (g := id)

theorem toJsonMembers_eq_map (members : List (String × Value)) :
    toJsonMembers members = members.map fun m => (m.1, m.2.toJson) := by
  induction members with
  | nil => rfl
  | cons m rest ih => simp [toJsonMembers, ih]

theorem ofJsonMembers_eq_map (members : List (String × Json)) :
    ofJsonMembers members = members.map fun m => (m.1, ofJson m.2) := by
  induction members with
  | nil => rfl
  | cons m rest ih => simp [ofJsonMembers, ih]

end BoundSql.Value
