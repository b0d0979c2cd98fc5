import BoundSql.Filter.Clause
import BoundSql.Proofs.Text.Words

set_option autoImplicit false

/-!
# The grammar of conditions

A well-formed condition is an operand of this grammar, over some set of names:

    operand ::= path | " ? " | "NULL" | group
    group   ::= "(" operand sign operand ")" | "(" item { " OR " item } ")"
    item    ::= name " = ?" | name " = NULL"

Two properties of its texts are found by reading a text once from left to right: parentheses
balance, and no side of a group is missing.
-/

namespace BoundSql.Filter

open Text

variable {isName : String → Prop}

/-- One alternative of a membership. -/
inductive IsItem (isName : String → Prop) : String → Prop where
  | mark {name : String} (named : isName name) : IsItem isName (name ++ " = ?")
  | null {name : String} (named : isName name) : IsItem isName (name ++ " = NULL")

/-- A well-formed condition. -/
inductive IsOperand (isName : String → Prop) : String → Prop where
  | path {names : List String} (nonempty : names ≠ []) (named : ∀ name ∈ names, isName name) :
      IsOperand isName (joinWith "." names)
  | placeholder : IsOperand isName " ? "
  | null : IsOperand isName "NULL"
  | group {left right : String} (sign : Connective) (isLeft : IsOperand isName left)
      (isRight : IsOperand isName right) :
      IsOperand isName ("(" ++ left ++ sign.text ++ right ++ ")")
  | membership {items : List String} (nonempty : items ≠ [])
      (each : ∀ item ∈ items, IsItem isName item) :
      IsOperand isName ("(" ++ joinWith " OR " items ++ ")")

/-- A path of words is a word. -/
theorem isWord_path {names : List String} (nonempty : names ≠ [])
    (word : ∀ name ∈ names, IsWord name) : IsWord (joinWith "." names) := by
  induction names with
  | nil => exact absurd rfl nonempty
  | cons name names ih =>
      have hname := word name List.mem_cons_self
      cases names with
      | nil => exact hname
      | cons next names =>
          have hrest := ih (by simp) fun n hn => word n (List.mem_cons_of_mem name hn)
          rw [joinWith_cons _ (by simp)]
          have hdot : IsWord "." := ⟨by simp, by simp [isDelimiter]⟩
          exact (hname.append hdot).append hrest

/-! ## Parentheses -/

/-- How many parentheses are open after one more character.  None if it closes one too many. -/
def nest (depth : Nat) (c : Char) : Option Nat :=
  if c = '(' then some (depth + 1)
  else if c = ')' then if depth = 0 then none else some (depth - 1)
  else some depth

/-- Every parenthesis that is opened is closed, and none is closed before it is opened. -/
def Balanced (text : String) : Prop := text.toList.foldlM nest 0 = some 0

/-- The text leaves the number of open parentheses as it was. -/
def IsLevel (text : List Char) : Prop := ∀ depth, text.foldlM nest depth = some depth

theorem IsLevel.append {xs ys : List Char} (hx : IsLevel xs) (hy : IsLevel ys) :
    IsLevel (xs ++ ys) := by
  intro depth
  rw [List.foldlM_append, hx depth]
  exact hy depth

theorem isLevel_of_plain {text : List Char} (h : ∀ c ∈ text, c ≠ '(' ∧ c ≠ ')') : IsLevel text := by
  intro depth
  induction text with
  | nil => rfl
  | cons c cs ih =>
      obtain ⟨hopen, hclose⟩ := h c List.mem_cons_self
      rw [List.foldlM_cons, nest, if_neg hopen, if_neg hclose]
      exact ih fun d hd => h d (List.mem_cons_of_mem c hd)

theorem IsLevel.parenthesized {text : List Char} (h : IsLevel text) :
    IsLevel ('(' :: (text ++ [')'])) := by
  intro depth
  have hopen : nest depth '(' = some (depth + 1) := by simp [nest]
  have hclose : nest (depth + 1) ')' = some depth := by simp [nest]
  rw [List.foldlM_cons, hopen]
  simp only [Option.bind_eq_bind, Option.bind_some, List.foldlM_append, h (depth + 1),
    List.foldlM_cons, hclose, List.foldlM_nil]
  rfl

theorem isLevel_word {text : String} (h : IsWord text) : IsLevel text.toList := by
  refine isLevel_of_plain fun c hc => ⟨?_, ?_⟩
  · rintro rfl
    exact absurd (h.plain _ hc) (by decide)
  · rintro rfl
    exact absurd (h.plain _ hc) (by decide)

theorem isLevel_connective (sign : Connective) : IsLevel sign.text.toList :=
  isLevel_of_plain (by cases sign <;> simp [Connective.text])

theorem isLevel_joinWith {separator : String} {texts : List String}
    (hseparator : IsLevel separator.toList) (h : ∀ text ∈ texts, IsLevel text.toList) :
    IsLevel (joinWith separator texts).toList := by
  induction texts with
  | nil => exact isLevel_of_plain (by simp [joinWith])
  | cons text texts ih =>
      have htext := h text List.mem_cons_self
      cases texts with
      | nil => exact htext
      | cons other texts =>
          have hrest := ih fun t ht => h t (List.mem_cons_of_mem text ht)
          rw [joinWith_cons _ (by simp), String.toList_append, String.toList_append]
          exact (htext.append hseparator).append hrest

/-! ## Sides

A side that is missing shows in two ways only: behind an opening parenthesis comes the blank of a
sign, which no question mark follows, or before a closing parenthesis comes the blank of a sign,
which no question mark precedes. -/

/-- What was read last. -/
inductive Place where
  /-- An opening parenthesis. -/
  | opened
  /-- An opening parenthesis and a blank. -/
  | gap
  | mark
  /-- A blank that belongs to no question mark before it. -/
  | blank
  | inside
  deriving DecidableEq

/-- The place after one more character.  None if a side is missing. -/
def next (place : Place) (c : Char) : Option Place :=
  if c = '?' then some .mark
  else if place = .gap then none
  else if c = '(' then some .opened
  else if c = ')' then if place = .blank then none else some .inside
  else if c = ' ' then
    match place with
    | .opened => some .gap
    | .mark => some .inside
    | _ => some .blank
  else some .inside

/-- The place after a text.  None if a side is missing in it. -/
def scan (place : Place) (text : List Char) : Option Place := text.foldlM next place

theorem scan_append {place mid : Place} {xs ys : List Char} (h : scan place xs = some mid) :
    scan place (xs ++ ys) = scan mid ys := by
  unfold scan at h ⊢
  rw [List.foldlM_append, h]
  rfl

theorem scan_append_of_none {place : Place} {xs ys : List Char} (h : scan place xs = none) :
    scan place (xs ++ ys) = none := by
  unfold scan at h ⊢
  rw [List.foldlM_append, h]
  rfl

theorem scan_cons {place mid : Place} {c : Char} {cs : List Char} (h : next place c = some mid) :
    scan place (c :: cs) = scan mid cs := by
  unfold scan
  rw [List.foldlM_cons, h]
  rfl

theorem next_open {place : Place} (hgap : place ≠ .gap) : next place '(' = some .opened := by
  simp [next, hgap]

theorem next_of_plain {place : Place} {c : Char} (h : isDelimiter c = false)
    (hgap : place ≠ .gap) : next place c = some .inside := by
  have hc : ((c ≠ ' ' ∧ c ≠ '(') ∧ c ≠ ')') ∧ c ≠ '?' := by simpa [isDelimiter] using h
  simp [next, hc, hgap]

theorem scan_word {place : Place} {text : String} (h : IsWord text) (hgap : place ≠ .gap) :
    scan place text.toList = some .inside := by
  have hrun {place : Place} {cs : List Char} (hcs : ∀ c ∈ cs, isDelimiter c = false)
      (hplace : place = .inside) : scan place cs = some .inside := by
    subst hplace
    induction cs with
    | nil => rfl
    | cons c cs ih =>
        have hnext := next_of_plain (hcs c List.mem_cons_self) (show Place.inside ≠ .gap by decide)
        rw [scan_cons hnext]
        exact ih fun d hd => hcs d (List.mem_cons_of_mem c hd)
  obtain ⟨c, cs, htext, hc⟩ := h.exists_cons
  have hnext := next_of_plain hc hgap
  rw [htext, scan_cons hnext]
  exact hrun (fun d hd => h.plain d (htext ▸ List.mem_cons_of_mem c hd)) rfl

theorem scan_connective (sign : Connective) : scan .inside sign.text.toList = some .blank := by
  cases sign <;> decide

/-- The alternatives of a membership end in a question mark or in a word. -/
theorem scan_item {place : Place} {item : String} (hword : ∀ name, isName name → IsWord name)
    (h : IsItem isName item) (hgap : place ≠ .gap) :
    scan place item.toList = some .mark ∨ scan place item.toList = some .inside := by
  cases h with
  | mark named =>
      rw [String.toList_append]
      exact .inl (scan_append (scan_word (hword _ named) hgap))
  | null named =>
      rw [String.toList_append]
      exact .inr (scan_append (scan_word (hword _ named) hgap))

theorem scan_membership {place : Place} {items : List String}
    (hword : ∀ name, isName name → IsWord name) (nonempty : items ≠ [])
    (each : ∀ item ∈ items, IsItem isName item) (hgap : place ≠ .gap) :
    scan place ((joinWith " OR " items).toList ++ [')']) = some .inside := by
  induction items generalizing place with
  | nil => exact absurd rfl nonempty
  | cons item items ih =>
      have hitem := scan_item hword (each item List.mem_cons_self) hgap
      cases items with
      | nil => rcases hitem with hitem | hitem <;> exact scan_append hitem
      | cons other items =>
          have hrest := ih (by simp) (fun i hi => each i (List.mem_cons_of_mem item hi))
            (show Place.blank ≠ .gap by decide)
          rw [joinWith_cons _ (by simp), String.toList_append, String.toList_append,
            List.append_assoc, List.append_assoc]
          rcases hitem with hitem | hitem <;>
            exact (scan_append hitem).trans ((scan_append rfl).trans hrest)

/-- No side is missing in a well-formed condition. -/
theorem IsOperand.scan {place : Place} {text : String} (hword : ∀ name, isName name → IsWord name)
    (h : IsOperand isName text) (hgap : place ≠ .gap) :
    scan place text.toList = some .inside := by
  induction h generalizing place with
  | path nonempty named =>
      exact scan_word (isWord_path nonempty fun name hname => hword name (named name hname)) hgap
  | placeholder => cases place <;> first | rfl | exact absurd rfl hgap
  | null => exact scan_word isWord_null hgap
  | @group left right sign _ _ ihLeft ihRight =>
      have hopen : Filter.scan place "(".toList = some .opened := scan_cons (next_open hgap)
      simp only [String.toList_append, List.append_assoc]
      rw [scan_append hopen, scan_append (ihLeft (by decide)), scan_append (scan_connective sign),
        scan_append (ihRight (by decide))]
      rfl
  | membership nonempty each =>
      have hopen : Filter.scan place "(".toList = some .opened := scan_cons (next_open hgap)
      simp only [String.toList_append, List.append_assoc]
      rw [scan_append hopen]
      exact scan_membership hword nonempty each (by decide)

theorem IsOperand.ne_empty {text : String} (hword : ∀ name, isName name → IsWord name)
    (h : IsOperand isName text) : text ≠ "" := by
  cases h with
  | path nonempty named =>
      exact (isWord_path nonempty fun name hname => hword name (named name hname)).ne_empty
  | placeholder => decide
  | null => decide
  | group sign _ _ => exact fun h => by simpa using congrArg String.toList h
  | membership _ _ => exact fun h => by simpa using congrArg String.toList h

end BoundSql.Filter
