import BoundSql.Filter.Clause
import BoundSql.Proofs.Text.Words

set_option autoImplicit false

/-!
# Legible operands

An operand is legible when its columns are words other than `NULL`, nothing in it is blank, and its
signs fit what they stand before.  The text and the values of a legible operand together say which
operand it is, even when more follows: groups are kept apart by their parentheses, the sides and the
sign of a group by the blanks around the sign, and a membership from a comparison by the missing
blanks around its question marks.
-/

namespace BoundSql.Filter

open Text

/-- Can the sign stand before the operand?  Equality with null is said by `IS`, and `IS` is never
said of a column, which could begin with `NOT`. -/
def Connective.Fits : Connective → Operand → Prop
  | .equal, .null => False
  | .is, .column _ => False
  | _, _ => True

/-- The operand can be read back from its text and values. -/
inductive Operand.Legible : Operand → Prop where
  | column {name : String} (word : IsWord name) (named : name ≠ nullText) : Legible (.column name)
  | bound (value : Value) : Legible (.bound value)
  | null : Legible .null
  | group {left right : Operand} {sign : Connective} (legibleLeft : Legible left)
      (fits : sign.Fits right) (legibleRight : Legible right) : Legible (.group left sign right)
  | membership {name : String} {items : List Value} (word : IsWord name) (named : name ≠ nullText)
      (nonempty : items ≠ []) : Legible (.membership name items)

variable {a b : Operand} {r s : List Char}

/-! ## Texts -/

/-- The operators are written between blanks, so that they end a word. -/
theorem endsWord_connective (sign : Connective) : EndsWord (sign.text.toList ++ r) := by
  cases sign <;> exact endsWord_cons (by decide)

theorem toList_text_bound (value : Value) :
    (Operand.bound value).text.toList ++ r = ' ' :: '?' :: ' ' :: r := by
  simp [Operand.text]

theorem toList_text_group (left right : Operand) (sign : Connective) :
    (Operand.group left sign right).text.toList ++ r =
      '(' :: (left.text.toList ++ (sign.text.toList ++ (right.text.toList ++ ')' :: r))) := by
  simp [Operand.text]

/-- The text of the items of a membership with what follows. -/
def itemsText (name : String) (items : List Value) (r : List Char) : List Char :=
  (joinWith " OR " (items.map (itemText name))).toList ++ ')' :: r

theorem toList_text_membership (name : String) (items : List Value) :
    (Operand.membership name items).text.toList ++ r = '(' :: itemsText name items r := by
  simp [Operand.text, itemsText]

/-- What is written for an item beside the column. -/
def itemMark (item : Value) : List Char := if item.isNull then nullText.toList else ['?']

/-- What follows an item: the next one, or the end of the membership. -/
def laterItems (name : String) (items : List Value) (r : List Char) : List Char :=
  if items.isEmpty then ')' :: r else " OR ".toList ++ itemsText name items r

theorem toList_itemText (name : String) (item : Value) :
    (itemText name item).toList = name.toList ++ (" = ".toList ++ itemMark item) := by
  unfold itemText itemMark
  cases item.isNull <;> simp

theorem itemsText_cons (name : String) (item : Value) (items : List Value) :
    itemsText name (item :: items) r =
      name.toList ++ (" = ".toList ++ (itemMark item ++ laterItems name items r)) := by
  cases items with
  | nil => simp [itemsText, laterItems, joinWith, toList_itemText]
  | cons next items => simp [itemsText, laterItems, joinWith, toList_itemText]

theorem endsWord_laterItems (name : String) (items : List Value) :
    EndsWord (laterItems name items r) := by
  have hblank : EndsWord (' ' :: ("OR ".toList ++ itemsText name items r)) :=
    endsWord_cons (by decide)
  unfold laterItems
  split
  · exact endsWord_cons (by decide)
  · exact hblank

/-! ## What a text begins with -/

/-- A legible operand that begins like a word is that word. -/
theorem Operand.Legible.of_word {name : String} (ha : a.Legible) (word : IsWord name)
    (hr : EndsWord r) (hs : EndsWord s) (h : a.text.toList ++ r = name.toList ++ s) :
    (a = .column name ∨ a = .null ∧ name = nullText) ∧ r = s := by
  cases ha with
  | @column other wordOther _ =>
      obtain ⟨rfl, hrest⟩ := wordOther.append_inj word hr hs h
      exact ⟨.inl rfl, hrest⟩
  | bound value =>
      rw [toList_text_bound] at h
      exact absurd h.symm (word.append_ne_cons (by decide))
  | null =>
      obtain ⟨hname, hrest⟩ := isWord_null.append_inj word hr hs h
      exact ⟨.inr ⟨rfl, hname.symm⟩, hrest⟩
  | group _ _ _ =>
      rw [toList_text_group] at h
      exact absurd h.symm (word.append_ne_cons (by decide))
  | membership _ _ _ =>
      rw [toList_text_membership] at h
      exact absurd h.symm (word.append_ne_cons (by decide))

/-- The text of a column tells it from every other legible operand. -/
theorem Operand.Legible.eq_column {name : String} (ha : a.Legible) (word : IsWord name)
    (named : name ≠ nullText) (hr : EndsWord r) (hs : EndsWord s)
    (h : a.text.toList ++ r = name.toList ++ s) : a = .column name ∧ r = s := by
  obtain ⟨hcase, hrest⟩ := ha.of_word word hr hs h
  rcases hcase with rfl | ⟨_, hname⟩
  · exact ⟨rfl, hrest⟩
  · exact absurd hname named

theorem Operand.Legible.eq_null (ha : a.Legible) (hr : EndsWord r) (hs : EndsWord s)
    (h : a.text.toList ++ r = nullText.toList ++ s) : a = .null ∧ r = s := by
  obtain ⟨hcase, hrest⟩ := ha.of_word isWord_null hr hs h
  rcases hcase with rfl | ⟨rfl, _⟩
  · cases ha with
    | column _ named => exact absurd rfl named
  · exact ⟨rfl, hrest⟩

/-- No legible operand begins with the question mark of an item. -/
theorem Operand.Legible.ne_placeholder (ha : a.Legible) : a.text.toList ++ r ≠ '?' :: s := by
  intro h
  cases ha with
  | column word _ => exact word.append_ne_cons (by decide) h
  | bound value => simp [Operand.text] at h
  | null => exact isWord_null.append_ne_cons (by decide) h
  | group _ _ _ => simp [toList_text_group] at h
  | membership _ _ _ => simp [toList_text_membership] at h

/-! ## Signs -/

/-- Two signs begin alike only if they are the same, or if they are `IS` and `IS NOT`. -/
theorem connective_append_cases {sign sign' : Connective} {x y : List Char}
    (h : sign.text.toList ++ x = sign'.text.toList ++ y) :
    sign = sign' ∧ x = y ∨
      sign = .is ∧ sign' = .isNot ∧ x = "NOT".toList ++ ' ' :: y ∨
      sign = .isNot ∧ sign' = .is ∧ y = "NOT".toList ++ ' ' :: x := by
  cases sign <;> cases sign' <;> simp [Connective.text] at h ⊢ <;>
    first
      | exact h
      | exact h.symm

/-- An operand that fits behind `IS` does not go on with `NOT`. -/
theorem not_begins_not (ha : a.Legible) (fits : Connective.is.Fits a) (hr : EndsWord r) :
    a.text.toList ++ r ≠ "NOT".toList ++ ' ' :: s := by
  intro h
  have hword : IsWord "NOT" := ⟨by simp, by simp [isDelimiter]⟩
  obtain ⟨rfl, _⟩ := ha.eq_column hword (by decide) hr (endsWord_cons (by decide)) h
  exact fits

/-- The sign between the sides of a group is known from the text. -/
theorem connective_append_inj {sign sign' : Connective} (ha : a.Legible) (hb : b.Legible)
    (fits : sign.Fits a) (fits' : sign'.Fits b) (hr : EndsWord r) (hs : EndsWord s)
    (h : sign.text.toList ++ (a.text.toList ++ r) = sign'.text.toList ++ (b.text.toList ++ s)) :
    sign = sign' ∧ a.text.toList ++ r = b.text.toList ++ s := by
  rcases connective_append_cases h with hsame | ⟨rfl, rfl, hnot⟩ | ⟨rfl, rfl, hnot⟩
  · exact hsame
  · exact absurd hnot (not_begins_not ha fits hr)
  · exact absurd hnot (not_begins_not hb fits' hs)

/-! ## Memberships -/

/-- The items of a membership are known from the text and the values. -/
theorem itemsText_inj {name : String} {items others : List Value} {p q : List Value}
    (hitems : items ≠ []) (hothers : others ≠ [])
    (h : itemsText name items r = itemsText name others s)
    (hvalues : items.filter (!·.isNull) ++ p = others.filter (!·.isNull) ++ q) :
    items = others ∧ r = s ∧ p = q := by
  induction items generalizing others with
  | nil => exact absurd rfl hitems
  | cons item items ih =>
      cases others with
      | nil => exact absurd rfl hothers
      | cons other others =>
          rw [itemsText_cons, itemsText_cons] at h
          have hmarks := List.append_cancel_left (List.append_cancel_left h)
          have hlater (heq : laterItems name items r = laterItems name others s)
              (hrest : items.filter (!·.isNull) ++ p = others.filter (!·.isNull) ++ q) :
              items = others ∧ r = s ∧ p = q := by
            cases items with
            | nil =>
                cases others with
                | nil => exact ⟨rfl, (List.cons.inj heq).2, hrest⟩
                | cons other others => simp [laterItems] at heq
            | cons item items =>
                cases others with
                | nil => simp [laterItems] at heq
                | cons other others =>
                    exact ih (by simp) (by simp) (List.append_cancel_left heq) hrest
          unfold itemMark at hmarks
          cases hitem : item.isNull <;> cases hother : other.isNull <;>
            simp only [hitem, hother, if_true, Bool.false_eq_true, if_false] at hmarks
          · simp only [List.filter_cons, hitem, hother, Bool.not_false, if_true,
              List.cons_append] at hvalues
            obtain ⟨rfl, hrest⟩ := List.cons.inj hvalues
            obtain ⟨rfl, hend⟩ := hlater (List.append_cancel_left hmarks) hrest
            exact ⟨rfl, hend⟩
          · simp [nullText] at hmarks
          · simp [nullText] at hmarks
          · simp only [List.filter_cons, hitem, hother, Bool.not_true, Bool.false_eq_true,
              if_false] at hvalues
            obtain ⟨rfl, hend⟩ := hlater (List.append_cancel_left hmarks) hvalues
            rw [Value.isNull_iff.mp hitem, Value.isNull_iff.mp hother]
            exact ⟨rfl, hend⟩

/-- A membership is not written like any group. -/
theorem membership_ne_group {name : String} {items : List Value} {sign : Connective}
    (word : IsWord name) (named : name ≠ nullText) (hitems : items ≠ []) (ha : a.Legible)
    (hb : b.Legible) (fits : sign.Fits b) :
    itemsText name items r ≠
      a.text.toList ++ (sign.text.toList ++ (b.text.toList ++ ')' :: s)) := by
  intro h
  cases items with
  | nil => exact hitems rfl
  | cons item items =>
      rw [itemsText_cons] at h
      obtain ⟨rfl, hsign⟩ := ha.eq_column word named (endsWord_connective sign)
        (endsWord_connective .equal) h.symm
      have hequal : sign.text.toList ++ (b.text.toList ++ ')' :: s) =
          Connective.equal.text.toList ++ (itemMark item ++ laterItems name items r) := hsign
      rcases connective_append_cases hequal with
        ⟨rfl, hright⟩ | ⟨_, hother, _⟩ | ⟨_, hother, _⟩
      · unfold itemMark at hright
        split at hright
        · obtain ⟨rfl, _⟩ := hb.eq_null (endsWord_cons (by decide))
            (endsWord_laterItems name items) hright
          exact fits
        · exact hb.ne_placeholder hright
      · exact absurd hother (by decide)
      · exact absurd hother (by decide)

/-! ## Reading back -/

/-- A legible operand is known from its text and values, whatever follows. -/
theorem Operand.Legible.append_inj {p q : List Value} (ha : a.Legible) (hb : b.Legible)
    (hr : EndsWord r) (hs : EndsWord s) (htext : a.text.toList ++ r = b.text.toList ++ s)
    (hvalues : a.values ++ p = b.values ++ q) : a = b ∧ r = s ∧ p = q := by
  induction ha generalizing b r s p q with
  | @column name word named =>
      obtain ⟨rfl, hrest⟩ := hb.eq_column word named hs hr htext.symm
      exact ⟨rfl, hrest.symm, hvalues⟩
  | null =>
      obtain ⟨rfl, hrest⟩ := hb.eq_null hs hr htext.symm
      exact ⟨rfl, hrest.symm, hvalues⟩
  | bound value =>
      have hblank := htext
      rw [toList_text_bound] at hblank
      cases hb with
      | column word _ => exact absurd hblank.symm (word.append_ne_cons (by decide))
      | bound other =>
          obtain ⟨rfl, hrest⟩ := List.cons.inj hvalues
          exact ⟨rfl, List.append_cancel_left htext, hrest⟩
      | null => exact absurd hblank.symm (isWord_null.append_ne_cons (by decide))
      | group _ _ _ => simp [Operand.text] at htext
      | membership _ _ _ => simp [Operand.text] at htext
  | @group left right sign legibleLeft fits legibleRight ihLeft ihRight =>
      have hgroup : (Operand.group left sign right).Legible := .group legibleLeft fits legibleRight
      cases hb with
      | column word named => exact absurd (hgroup.eq_column word named hr hs htext).1 (by simp)
      | bound other => simp [Operand.text] at htext
      | null => exact absurd (hgroup.eq_null hr hs htext).1 (by simp)
      | @group left' right' sign' legibleLeft' fits' legibleRight' =>
          rw [toList_text_group, toList_text_group] at htext
          simp only [Operand.values, List.append_assoc] at hvalues
          obtain ⟨rfl, hsign, hvaluesRight⟩ := ihLeft legibleLeft' (endsWord_connective sign)
            (endsWord_connective sign') (List.cons.inj htext).2 hvalues
          have hend (rest : List Char) : EndsWord (')' :: rest) := endsWord_cons (by decide)
          obtain ⟨rfl, hright⟩ := connective_append_inj legibleRight legibleRight' fits fits'
            (hend r) (hend s) hsign
          obtain ⟨rfl, hrest, hvaluesRest⟩ := ihRight legibleRight' (hend r) (hend s) hright
            hvaluesRight
          exact ⟨rfl, (List.cons.inj hrest).2, hvaluesRest⟩
      | membership word named nonempty =>
          rw [toList_text_group, toList_text_membership] at htext
          exact absurd (List.cons.inj htext).2.symm
            (membership_ne_group word named nonempty legibleLeft legibleRight fits)
  | @membership name items word named nonempty =>
      have hmembership : (Operand.membership name items).Legible := .membership word named nonempty
      cases hb with
      | column word named => exact absurd (hmembership.eq_column word named hr hs htext).1 (by simp)
      | bound other => simp [Operand.text] at htext
      | null => exact absurd (hmembership.eq_null hr hs htext).1 (by simp)
      | group legibleLeft fits legibleRight =>
          rw [toList_text_group, toList_text_membership] at htext
          exact absurd (List.cons.inj htext).2
            (membership_ne_group word named nonempty legibleLeft legibleRight fits)
      | @membership other others word' named' nonempty' =>
          rw [toList_text_membership, toList_text_membership] at htext
          have hitems := (List.cons.inj htext).2
          obtain ⟨item, items, rfl⟩ := List.exists_cons_of_ne_nil nonempty
          obtain ⟨item', others, rfl⟩ := List.exists_cons_of_ne_nil nonempty'
          have hname := hitems
          rw [itemsText_cons, itemsText_cons] at hname
          obtain ⟨rfl, _⟩ := word.append_inj word' (endsWord_connective .equal)
            (endsWord_connective .equal) hname
          obtain ⟨heq, hrest⟩ := itemsText_inj nonempty nonempty' hitems hvalues
          exact ⟨by rw [heq], hrest⟩

/-- Conditions joined by `AND` are known from the text and the values together. -/
theorem clauses_append_inj {as bs : List Operand} (ha : ∀ a ∈ as, a.Legible)
    (hb : ∀ b ∈ bs, b.Legible)
    (htext : as.flatMap (fun a => " AND ".toList ++ a.text.toList) =
      bs.flatMap fun b => " AND ".toList ++ b.text.toList)
    (hvalues : as.flatMap Operand.values = bs.flatMap Operand.values) : as = bs := by
  induction as generalizing bs with
  | nil =>
      cases bs with
      | nil => rfl
      | cons b bs => simp at htext
  | cons a as ih =>
      cases bs with
      | nil => simp at htext
      | cons b bs =>
          have hend (cs : List Operand) :
              EndsWord (cs.flatMap fun c => " AND ".toList ++ c.text.toList) := by
            cases cs with
            | nil => exact endsWord_nil
            | cons c cs =>
                rw [List.flatMap_cons, List.append_assoc]
                exact endsWord_connective .and
          simp only [List.flatMap_cons, List.append_assoc] at htext hvalues
          obtain ⟨rfl, htexts, hrest⟩ := (ha a List.mem_cons_self).append_inj
            (hb b List.mem_cons_self) (hend as) (hend bs) (List.append_cancel_left htext) hvalues
          rw [ih (fun c hc => ha c (List.mem_cons_of_mem a hc))
            (fun c hc => hb c (List.mem_cons_of_mem a hc)) htexts hrest]

end BoundSql.Filter
