import BoundSql.Text.Segments
import Mathlib.Data.List.Infix

set_option autoImplicit false

/-!
# Separators

Names that do not contain a separator can be told from the text that joins them with it, unless two
occurrences of the separator overlap in that text: then one of the two belongs to the join and the
other arises between it and a name, and the text can be taken apart at either of them.  Without an
overlap the names are the only ones that give the text (`forall_eq_iff_not_overlaps`).
-/

namespace BoundSql.Text

variable {separator cs ds : List Char} {names others : List (List Char)}

/-! ## Cutting and joining -/

theorem cutAt_eq_splitOn (mark : Char) (cs : List Char) : cutAt mark cs = cs.splitOn mark := by
  induction cs with
  | nil => rfl
  | cons c cs ih =>
      rw [cutAt, List.splitOn, List.splitOnP_cons_eq_if_modifyHead, ih, List.splitOn]
      by_cases hc : c = mark
      · simp [hc]
      · simp only [hc, beq_iff_eq, if_false]
        cases hpieces : List.splitOnP (· == mark) cs with
        | nil => exact absurd hpieces (List.splitOnP_ne_nil _ cs)
        | cons piece pieces => rfl

/-- Pieces without the mark are what their join with the mark is cut into. -/
theorem cutAt_intercalate {mark : Char} (hne : names ≠ []) (h : ∀ name ∈ names, mark ∉ name) :
    cutAt mark ([mark].intercalate names) = names := by
  rw [cutAt_eq_splitOn, List.splitOn_intercalate mark h hne]

/-- To replace the dots is to cut at them and to join with what stands for them. -/
theorem replaceDotsIn_eq_intercalate (separator cs : List Char) :
    replaceDotsIn separator cs = separator.intercalate (cutAt '.' cs) := by
  induction cs with
  | nil => rfl
  | cons c cs ih =>
      have hne := cutAt_ne_nil '.' cs
      rw [replaceDotsIn, cutAt, ih]
      split
      · rw [List.intercalate_cons_of_ne_nil hne, List.nil_append]
      · cases hpieces : cutAt '.' cs with
        | nil => exact absurd hpieces hne
        | cons piece pieces => cases pieces <;> simp

theorem not_mem_replaceDotsIn (h : '.' ∉ separator) (cs : List Char) :
    '.' ∉ replaceDotsIn separator cs := by
  induction cs with
  | nil => simp [replaceDotsIn]
  | cons c cs ih =>
      rw [replaceDotsIn]
      split
      · simp [h, ih]
      · rename_i hc
        simp [Ne.symm hc, ih]

theorem intercalate_append (hnames : names ≠ []) (hothers : others ≠ []) :
    separator.intercalate (names ++ others) =
      separator.intercalate names ++ separator ++ separator.intercalate others := by
  induction names with
  | nil => exact absurd rfl hnames
  | cons name names ih =>
      by_cases hrest : names = []
      · subst hrest
        simp [List.intercalate_cons_of_ne_nil hothers]
      · rw [List.cons_append, List.intercalate_cons_of_ne_nil (by simp [hrest]), ih hrest,
          List.intercalate_cons_of_ne_nil hrest]
        simp

theorem mem_intercalate_of_mem {name : List Char} {c : Char} (hname : name ∈ names)
    (hc : c ∈ name) : c ∈ separator.intercalate names := by
  induction names with
  | nil => cases hname
  | cons first names ih =>
      by_cases hrest : names = []
      · subst hrest
        obtain rfl := List.mem_singleton.mp hname
        simpa using hc
      · rw [List.intercalate_cons_of_ne_nil hrest]
        rcases List.mem_cons.mp hname with rfl | hname
        · simp [hc]
        · simp [ih hname]

/-! ## Overlaps -/

/-- The separator occurs in the text, and again before that occurrence has ended. -/
def Overlaps (separator cs : List Char) : Prop :=
  ∃ shift, shift ≠ [] ∧ shift.length < separator.length ∧ separator <+: shift ++ separator ∧
    shift ++ separator <:+: cs

theorem Overlaps.mono (h : Overlaps separator cs) (hwithin : cs <:+: ds) :
    Overlaps separator ds := by
  obtain ⟨shift, hne, hlength, hprefix, hoccurs⟩ := h
  exact ⟨shift, hne, hlength, hprefix, hoccurs.trans hwithin⟩

/-- A separator that occurs again behind a shift lies within what comes before or overlaps
itself. -/
theorem infix_or_overlaps {before shift rest rest' : List Char} (hne : shift ≠ [])
    (h : separator ++ rest = shift ++ (separator ++ rest')) :
    separator <:+: before ++ shift ∨ Overlaps separator (before ++ (separator ++ rest)) := by
  have hprefix : separator <+: shift ++ (separator ++ rest') := ⟨rest, h⟩
  rcases Nat.lt_or_ge shift.length separator.length with hlt | hle
  · refine .inr ⟨shift, hne, hlt, ?_, before, rest', ?_⟩
    · rw [← List.append_assoc] at hprefix
      exact (List.isPrefix_append_of_length (by simp)).mp hprefix
    · rw [h]
      simp
  · have hshift : separator <+: shift := (List.isPrefix_append_of_length hle).mp hprefix
    exact .inl (hshift.isInfix.trans (List.suffix_append before shift).isInfix)

/-! ## Joins without an overlap -/

/-- Where no separators overlap, a name goes as far as the first separator. -/
theorem cut_unique {name other rest rest' : List Char} (hname : ¬separator <:+: name)
    (hother : ¬separator <:+: other)
    (single : ¬Overlaps separator (name ++ (separator ++ rest)))
    (h : name ++ (separator ++ rest) = other ++ (separator ++ rest')) :
    name = other ∧ rest = rest' := by
  rcases List.append_eq_append_iff.mp h with ⟨shift, rfl, hrest⟩ | ⟨shift, rfl, hrest⟩
  · by_cases hshift : shift = []
    · simpa [hshift] using hrest
    · exact absurd ((infix_or_overlaps hshift hrest).resolve_right single) hother
  · by_cases hshift : shift = []
    · simpa [hshift, eq_comm] using hrest
    · rw [h] at single
      exact absurd ((infix_or_overlaps hshift hrest).resolve_right single) hname

/-- The names do not contain the separator. -/
def AreFreeOf (separator : List Char) (names : List (List Char)) : Prop :=
  ∀ name ∈ names, ¬separator <:+: name

theorem areFreeOf_cons {name : List Char} :
    AreFreeOf separator (name :: names) ↔ ¬separator <:+: name ∧ AreFreeOf separator names :=
  List.forall_mem_cons

theorem AreFreeOf.append (h : AreFreeOf separator names) (h' : AreFreeOf separator others) :
    AreFreeOf separator (names ++ others) :=
  List.forall_mem_append.mpr ⟨h, h'⟩

/-- Names can be told from a join in which no separators overlap. -/
theorem eq_of_intercalate_eq (hnames : AreFreeOf separator names)
    (hothers : AreFreeOf separator others) (hne : names ≠ []) (hne' : others ≠ [])
    (single : ¬Overlaps separator (separator.intercalate names))
    (h : separator.intercalate names = separator.intercalate others) : names = others := by
  induction names generalizing others with
  | nil => exact absurd rfl hne
  | cons name names ih =>
      obtain ⟨other, others, rfl⟩ := List.exists_cons_of_ne_nil hne'
      obtain ⟨hname, hrestFree⟩ := areFreeOf_cons.mp hnames
      obtain ⟨hother, hrestFree'⟩ := areFreeOf_cons.mp hothers
      by_cases hrest : names = [] <;> by_cases hrest' : others = []
      · subst hrest hrest'
        simpa using h
      · subst hrest
        rw [List.intercalate_singleton, List.intercalate_cons_of_ne_nil hrest'] at h
        exact absurd (h ▸ List.infix_append other separator _) hname
      · subst hrest'
        rw [List.intercalate_singleton, List.intercalate_cons_of_ne_nil hrest] at h
        exact absurd (h ▸ List.infix_append name separator _) hother
      · rw [List.intercalate_cons_of_ne_nil hrest, List.append_assoc] at h single
        rw [List.intercalate_cons_of_ne_nil hrest', List.append_assoc] at h
        obtain ⟨rfl, hjoin⟩ := cut_unique hname hother single h
        have hsuffix : separator.intercalate names <:+ name ++ (separator ++ _) :=
          (List.suffix_append separator _).trans (List.suffix_append name _)
        have single' : ¬Overlaps separator (separator.intercalate names) :=
          fun hoverlap => single (hoverlap.mono hsuffix.isInfix)
        rw [ih hrestFree hrestFree' hrest hrest' single' hjoin]

/-! ## Joins with an overlap -/

/-- Every text is a join of names that do not contain the separator. -/
theorem exists_names (hseparator : separator ≠ []) (cs : List Char) :
    ∃ names, names ≠ [] ∧ AreFreeOf separator names ∧ separator.intercalate names = cs := by
  by_cases hwithin : separator <:+: cs
  · obtain ⟨front, back, hcs⟩ := hwithin
    have hpos := List.length_pos_iff.mpr hseparator
    have hlength : front.length + separator.length + back.length = cs.length := by
      simp [← hcs, Nat.add_assoc]
    obtain ⟨names, hne, hnames, hfront⟩ := exists_names hseparator front
    obtain ⟨others, hne', hothers, hback⟩ := exists_names hseparator back
    exact ⟨names ++ others, by simp [hne], hnames.append hothers,
      by rw [intercalate_append hne hne', hfront, hback, hcs]⟩
  · exact ⟨[cs], by simp, by simpa [AreFreeOf] using hwithin, List.intercalate_singleton⟩
termination_by cs.length
decreasing_by all_goals omega

/-- Two lists of names, cut at overlapping separators, are different. -/
theorem append_ne_append {shift front : List Char} {first second first' second' : List (List Char)}
    (hne : shift ≠ []) (hlength : shift.length < separator.length) (hfirst : first ≠ [])
    (hfirst' : first' ≠ []) (hfront : separator.intercalate first = front)
    (hfront' : separator.intercalate first' = front ++ shift) :
    first ++ second ≠ first' ++ second' := by
  have hpos := List.length_pos_iff.mpr hne
  have hlonger {names between : List (List Char)} (hnames : names ≠ []) (hbetween : between ≠ []) :
      (separator.intercalate names).length + separator.length ≤
        (separator.intercalate (names ++ between)).length := by
    rw [intercalate_append hnames hbetween]
    simp
  intro h
  rcases List.append_eq_append_iff.mp h with ⟨between, rfl, -⟩ | ⟨between, rfl, -⟩
  · by_cases hbetween : between = []
    · simp_all
    · have := hlonger hfirst hbetween
      simp [hfront, hfront'] at this
      omega
  · by_cases hbetween : between = []
    · simp_all
    · have := hlonger hfirst' hbetween
      simp [hfront, hfront'] at this
      omega

/-- A text in which separators overlap is the join of more than one list of names. -/
theorem exists_names_ne (h : Overlaps separator cs) (names : List (List Char)) :
    ∃ others, others ≠ [] ∧ AreFreeOf separator others ∧ separator.intercalate others = cs ∧
      others ≠ names := by
  obtain ⟨shift, hne, hlength, ⟨rest, hrest⟩, front, back, rfl⟩ := h
  have hseparator : separator ≠ [] := List.length_pos_iff.mp (by omega)
  obtain ⟨first, hfirst, freeFirst, hfront⟩ := exists_names hseparator front
  obtain ⟨second, hsecond, freeSecond, hback⟩ := exists_names hseparator (rest ++ back)
  obtain ⟨first', hfirst', freeFirst', hfront'⟩ := exists_names hseparator (front ++ shift)
  obtain ⟨second', hsecond', freeSecond', hback'⟩ := exists_names hseparator back
  have hcut : first ++ second ≠ first' ++ second' :=
    append_ne_append hne hlength hfirst hfirst' hfront hfront'
  by_cases hnames : first ++ second = names
  · exact ⟨first' ++ second', by simp [hfirst'], freeFirst'.append freeSecond',
      by rw [intercalate_append hfirst' hsecond', hfront', hback']; simp, hnames ▸ hcut.symm⟩
  · exact ⟨first ++ second, by simp [hfirst], freeFirst.append freeSecond,
      by rw [intercalate_append hfirst hsecond, hfront, hback, ← hrest]; simp, hnames⟩

/-- Names are the only ones that give their join exactly if no separators overlap in it. -/
theorem forall_eq_iff_not_overlaps (hne : names ≠ []) (hnames : AreFreeOf separator names) :
    (∀ others, others ≠ [] → AreFreeOf separator others →
        separator.intercalate others = separator.intercalate names → others = names) ↔
      ¬Overlaps separator (separator.intercalate names) := by
  constructor
  · intro hunique hoverlap
    obtain ⟨others, hne', hothers, hjoin, hdifferent⟩ := exists_names_ne hoverlap names
    exact hdifferent (hunique others hne' hothers hjoin)
  · intro single others hne' hothers hjoin
    exact (eq_of_intercalate_eq hnames hothers hne hne' single hjoin.symm).symm

end BoundSql.Text
