import BoundSql.Proofs.Expr.Parts
import BoundSql.Proofs.Filter.Grammar
import BoundSql.Proofs.Filter.Legible
import BoundSql.Proofs.Filter.Rules

set_option autoImplicit false

/-!
# Well-formed conditions

An accepted predicate is written as a well-formed condition unless the row itself stands in it as an
operand, which is written as nothing at all.  The main statement is `clause_isOperand_iff`.
-/

namespace BoundSql.Filter

open Text

variable {isName : String → Prop} {rowType : TypeRef}

/-! ## Operands without text -/

/-- Does the row itself stand as an operand, at the top or as a side that is written? -/
def hasBareRow : Expr → Bool
  | .param _ => true
  | .lambda _ _ body _ => hasBareRow body
  | .binary _ left right =>
    match textCompareArgs? left with
    | some _ => false
    | none => hasBareRow left || hasBareRow right
  | _ => false

namespace Operand

/-- Is a part of the operand blank? -/
def hasBlank : Operand → Bool
  | .blank => true
  | .group left _ right => left.hasBlank || right.hasBlank
  | _ => false

/-- The sides of all groups. -/
def sides : Operand → List Operand
  | .group left _ right => left :: right :: (left.sides ++ right.sides)
  | _ => []

/-- Every column is a path of names, and every membership has an item. -/
inductive Named (isName : String → Prop) : Operand → Prop where
  | column {path : List String} (nonempty : path ≠ []) (named : ∀ name ∈ path, isName name) :
      Named isName (.column (joinWith "." path))
  | bound (value : Value) : Named isName (.bound value)
  | null : Named isName .null
  | blank : Named isName .blank
  | group {left right : Operand} (sign : Connective) (namedLeft : Named isName left)
      (namedRight : Named isName right) : Named isName (.group left sign right)
  | membership {name : String} {items : List Value} (named : isName name) (nonempty : items ≠ []) :
      Named isName (.membership name items)

theorem named_member {ref : MemberRef} (h : isName ref.name) : Named isName (.column ref.name) := by
  have hpath : ∀ name ∈ [ref.name], isName name := by simpa using h
  exact .column (by simp) hpath

theorem named_ofValue? (value? : Option Value) : Named isName (ofValue? value?) := by
  cases value? with
  | none => exact .null
  | some value => exact .bound value

theorem hasBlank_ofValue? (value? : Option Value) : (ofValue? value?).hasBlank = false := by
  cases value? <;> rfl

/-- A part is blank exactly when the operand or a side in it is. -/
theorem hasBlank_iff {o : Operand} : o.hasBlank = true ↔ o = .blank ∨ .blank ∈ o.sides := by
  induction o with
  | group left sign right ihLeft ihRight =>
      simp only [hasBlank, Bool.or_eq_true, ihLeft, ihRight, sides, List.mem_cons, List.mem_append,
        reduceCtorEq, false_or]
      constructor
      · rintro ((h | h) | (h | h))
        · exact .inl h.symm
        · exact .inr (.inr (.inl h))
        · exact .inr (.inl h.symm)
        · exact .inr (.inr (.inr h))
      · rintro (h | h | h | h)
        · exact .inl (.inl h.symm)
        · exact .inr (.inl h.symm)
        · exact .inl (.inr h)
        · exact .inr (.inr h)
  | column _ | bound _ | null | blank | membership _ _ => simp [hasBlank, sides]

theorem Named.of_mem_sides {o side : Operand} (h : o.Named isName) (hside : side ∈ o.sides) :
    side.Named isName := by
  induction h with
  | group sign namedLeft namedRight ihLeft ihRight =>
      simp only [sides, List.mem_cons, List.mem_append] at hside
      rcases hside with rfl | rfl | hside | hside
      · exact namedLeft
      · exact namedRight
      · exact ihLeft hside
      · exact ihRight hside
  | column _ _ | bound _ | null | blank | membership _ _ => simp [sides] at hside

/-- Only the blank operand has no text. -/
theorem Named.text_eq_empty_iff {o : Operand} (hword : ∀ name, isName name → IsWord name)
    (h : o.Named isName) : o.text = "" ↔ o = .blank := by
  cases h with
  | column nonempty named =>
      have hpath := isWord_path nonempty fun name hname => hword name (named name hname)
      simpa [text] using hpath.ne_empty
  | bound value => simp [text]
  | null => simp [text, nullText]
  | blank => simp [text]
  | group sign _ _ =>
      refine ⟨fun hempty => ?_, fun hblank => by simp at hblank⟩
      simpa [text] using congrArg String.toList hempty
  | membership _ _ =>
      refine ⟨fun hempty => ?_, fun hblank => by simp at hblank⟩
      simpa [text] using congrArg String.toList hempty

/-- Something is blank exactly when the operand or a side in it has no text. -/
theorem Named.hasBlank_eq_false_iff {o : Operand} (hword : ∀ name, isName name → IsWord name)
    (h : o.Named isName) :
    o.hasBlank = false ↔ o.text ≠ "" ∧ ∀ side ∈ o.sides, side.text ≠ "" := by
  rw [← Bool.not_eq_true, hasBlank_iff, not_or, ne_eq, h.text_eq_empty_iff hword]
  refine and_congr_right fun _ => ⟨fun hblank side hside hempty => hblank ?_, fun hside hblank =>
    hside .blank hblank rfl⟩
  exact ((h.of_mem_sides hside).text_eq_empty_iff hword).mp hempty ▸ hside

/-- The parentheses of every operand balance, whether something in it is blank or not. -/
theorem Named.isLevel {o : Operand} (hword : ∀ name, isName name → IsWord name)
    (h : o.Named isName) : IsLevel o.text.toList := by
  induction h with
  | column nonempty named =>
      exact isLevel_word (isWord_path nonempty fun name hname => hword name (named name hname))
  | bound value => exact isLevel_of_plain (by simp [text])
  | null => exact isLevel_word isWord_null
  | blank => exact isLevel_of_plain (by simp [text])
  | group sign _ _ ihLeft ihRight =>
      have hsides := (ihLeft.append (isLevel_connective sign)).append ihRight
      simpa [text] using hsides.parenthesized
  | @membership name items named _ =>
      have hname := isLevel_word (hword name named)
      have hitem (item : Value) : IsLevel (itemText name item).toList := by
        unfold itemText
        split
        · rw [String.toList_append, String.toList_append]
          exact (hname.append (isLevel_of_plain (by simp))).append (isLevel_word isWord_null)
        · rw [String.toList_append]
          exact hname.append (isLevel_of_plain (by simp))
      have hitems : IsLevel (joinWith " OR " (items.map (itemText name))).toList := by
        exact isLevel_joinWith (isLevel_of_plain (by simp)) fun text htext => by
          obtain ⟨item, -, rfl⟩ := List.mem_map.mp htext
          exact hitem item
      simpa [text] using hitems.parenthesized

/-- An operand without blanks is well-formed. -/
theorem Named.isOperand {o : Operand} (h : o.Named isName) (hblank : o.hasBlank = false) :
    IsOperand isName o.text := by
  induction h with
  | column nonempty named => exact .path nonempty named
  | bound value => exact .placeholder
  | null => exact .null
  | blank => simp [hasBlank] at hblank
  | group sign _ _ ihLeft ihRight =>
      obtain ⟨hleft, hright⟩ : _ ∧ _ := by simpa [hasBlank] using hblank
      exact .group sign (ihLeft hleft) (ihRight hright)
  | @membership name items named nonempty =>
      refine .membership (by simpa using nonempty) fun text htext => ?_
      obtain ⟨item, -, rfl⟩ := List.mem_map.mp htext
      unfold itemText
      split
      · simpa [nullText, String.append_assoc] using IsItem.null named
      · exact .mark named

/-- A sign after a parenthesis that is just opened shows that a side is missing. -/
theorem scan_opened_connective (sign : Connective) : scan .opened sign.text.toList = none := by
  cases sign <;> decide

/-- A blank part shows in the text that is read on from an operand: from the left side of a group,
from the right side, and from anywhere else when the operand has a text at all. -/
theorem Named.scan_eq_none {o : Operand} (hword : ∀ name, isName name → IsWord name)
    (h : o.Named isName) (hblank : o.hasBlank = true) :
    (∀ (sign : Connective) rest,
      scan .opened (o.text.toList ++ (sign.text.toList ++ rest)) = none) ∧
    (∀ rest, scan .blank (o.text.toList ++ ')' :: rest) = none) ∧
    (o ≠ .blank → ∀ place rest, place ≠ .gap → scan place (o.text.toList ++ rest) = none) := by
  induction h with
  | blank =>
      refine ⟨fun sign rest => ?_, fun rest => ?_, fun hne => absurd rfl hne⟩
      · rw [show Operand.blank.text.toList = [] from rfl, List.nil_append]
        exact scan_append_of_none (scan_opened_connective sign)
      · rfl
  | @group left right sign namedLeft namedRight ihLeft ihRight =>
      have hgroup (place : Place) (rest : List Char) (hgap : place ≠ .gap) :
          scan place ((Operand.group left sign right).text.toList ++ rest) = none := by
        rw [toList_text_group, scan_cons (next_open hgap)]
        cases hleft : left.hasBlank with
        | true => exact (ihLeft hleft).1 sign _
        | false =>
            have hright : right.hasBlank = true := by simpa [hasBlank, hleft] using hblank
            have hopened : Place.opened ≠ .gap := by decide
            have hscan := (namedLeft.isOperand hleft).scan hword hopened
            rw [scan_append hscan, scan_append (scan_connective sign)]
            exact (ihRight hright).2.1 rest
      exact ⟨fun sign rest => hgroup .opened _ (by decide),
        fun rest => hgroup .blank _ (by decide), fun _ place rest => hgroup place rest⟩
  | column _ _ | bound _ | null | membership _ _ => simp [hasBlank] at hblank

/-- The text is well-formed exactly when nothing is blank. -/
theorem Named.isOperand_iff {o : Operand} (hword : ∀ name, isName name → IsWord name)
    (h : o.Named isName) : IsOperand isName o.text ↔ o.hasBlank = false := by
  refine ⟨fun hoperand => ?_, h.isOperand⟩
  cases hblank : o.hasBlank with
  | false => rfl
  | true =>
      have hne : o ≠ .blank := fun heq =>
        hoperand.ne_empty hword ((h.text_eq_empty_iff hword).mpr heq)
      have hnone := (h.scan_eq_none hword hblank).2.2 hne .inside [] (by decide)
      rw [List.append_nil, hoperand.scan hword (by decide)] at hnone
      exact absurd hnone (by simp)

end Operand

/-! ## Readings -/

variable {e : Expr} {o : Operand}

theorem named_of_reads (h : Reads rowType e o) (hnames : ∀ name ∈ e.path, isName name) :
    o.Named isName := by
  have hchild {child e : Expr} (hmem : child ∈ e.children)
      (hnames : ∀ name ∈ e.path, isName name) : ∀ name ∈ child.path, isName name :=
    fun name hname => hnames name (Expr.path_subset_of_child hmem hname)
  induction h with
  | column own => exact Operand.named_member (hnames _ (Expr.name_mem_path rfl))
  | literal form foreign resolved => exact Operand.named_ofValue? _
  | row => exact .blank
  | textCompare compared member signed resolved =>
      have hleft := hchild (comparedItem_mem_children compared)
        (hchild (by simp [Expr.children]) hnames)
      exact .group _ (Operand.named_member (hleft _ (Expr.name_mem_path member)))
        (Operand.named_ofValue? _)
  | @fallback op test ifTrue ifFalse right path sign second dotted signed _ ih =>
      obtain ⟨hpath, rfl⟩ : ifFalse.path ≠ [] ∧ joinWith "." ifFalse.path = path := by
        simpa [Expr.dottedPath?] using dotted
      have hcond : ∀ name ∈ (Expr.cond test ifTrue ifFalse).path, isName name :=
        hchild (by simp [Expr.children]) hnames
      exact .group _ (.column hpath (hchild (by simp [Expr.children]) hcond))
        (ih (hchild (by simp [Expr.children]) hnames))
  | binary plain _ signed _ ihLeft ihRight =>
      exact .group _ (ihLeft (hchild (by simp [Expr.children]) hnames))
        (ihRight (hchild (by simp [Expr.children]) hnames))
  | @membership declaring list item items ref listed member =>
      have hitem : ∀ name ∈ item.path, isName name := hchild (by simp [Expr.children]) hnames
      exact .membership (hitem _ (Expr.name_mem_path member)) (listItems_eq_ok_iff.mp listed).2
  | lambda _ ih => exact ih (hchild (by simp [Expr.children]) hnames)

/-- The parts of an operand that are blank are the rows that stand as operands. -/
theorem hasBlank_of_reads (h : Reads rowType e o) : o.hasBlank = hasBareRow e := by
  induction h with
  | column own => rfl
  | @literal e value? form foreign resolved =>
      rw [Operand.hasBlank_ofValue?]
      cases e <;> first | rfl | simp [isLiteralForm] at form
  | row => rfl
  | textCompare compared member signed resolved =>
      simp [hasBareRow, compared, Operand.hasBlank, Operand.hasBlank_ofValue?]
  | fallback dotted signed _ ih =>
      simp [hasBareRow, textCompareArgs?, Operand.hasBlank, ih]
  | binary plain _ signed _ ihLeft ihRight =>
      simp [hasBareRow, plain, Operand.hasBlank, ihLeft, ihRight]
  | membership listed member => rfl
  | lambda _ ih => simpa [hasBareRow] using ih

/-! ## Predicates -/

/-- An accepted predicate is written as a well-formed condition exactly when the row itself does not
stand in it as an operand, and exactly then neither the condition nor a side in it is without text.
The parentheses balance in any case. -/
theorem clause_isOperand_iff {predicate : Expr} (hword : ∀ name, isName name → IsWord name)
    (hnames : ∀ name ∈ predicate.path, isName name)
    (h : clause? rowType predicate = .ok (some o)) :
    (IsOperand isName o.text ↔ hasBareRow predicate = false) ∧
    ((o.text ≠ "" ∧ ∀ side ∈ o.sides, side.text ≠ "") ↔ hasBareRow predicate = false) ∧
    Balanced o.text := by
  obtain ⟨f, hlambda, -, reads⟩ := clause?_eq_some_iff.mp h
  obtain rfl : predicate = f.toExpr := by
    cases predicate with
    | lambda p returns body shaper => exact congrArg Lambda.toExpr (Option.some.inj hlambda)
    | _ => simp [Expr.asLambda?] at hlambda
  have hreads : Reads rowType f.toExpr o := .lambda reads
  have hnamed := named_of_reads hreads hnames
  rw [← hasBlank_of_reads hreads]
  exact ⟨hnamed.isOperand_iff hword, (hnamed.hasBlank_eq_false_iff hword).symm,
    hnamed.isLevel hword 0⟩

/-- Rows with an age. -/
def agedType : TypeRef := .record "Person" [("Age", .scalar .int)] []

/-- The test that the age of a row is what is given for the row. -/
def ageTest (given : Expr → Expr) : Expr :=
  let row : Expr := .param ⟨"x", agedType⟩
  .predicateOver row (.binary .equal (row.access "Age") (given row))

/-- The age compared with 7 is well-formed, and compared with the row itself it is not. -/
theorem clause_isOperand_iff_ageTest :
    (∃ o, clause? agedType (ageTest fun _ => .const (.integer 7)) = .ok (some o) ∧
      o.text = "(Age =  ? )" ∧ IsOperand IsIdentifier o.text) ∧
    ∃ o, clause? agedType (ageTest fun row => row) = .ok (some o) ∧
      o.text = "(Age IS )" ∧ ¬ IsOperand IsIdentifier o.text := by
  have hword : ∀ name, IsIdentifier name → IsWord name := fun _ h => h.isWord
  have hnames {given : Expr → Expr} (hpath : (ageTest given).path = ["Age"]) :
      ∀ name ∈ (ageTest given).path, IsIdentifier name := by
    rw [hpath]
    simp [IsIdentifier]
  constructor
  · have hclause : clause? agedType (ageTest fun _ => .const (.integer 7)) =
        .ok (some (.group (.column "Age") .equal (.bound (.integer 7)))) := rfl
    obtain ⟨hiff, -, -⟩ := clause_isOperand_iff hword (hnames rfl) hclause
    exact ⟨_, hclause, rfl, hiff.mpr rfl⟩
  · have hclause : clause? agedType (ageTest fun row => row) =
        .ok (some (.group (.column "Age") .is .blank)) := rfl
    obtain ⟨hiff, -, -⟩ := clause_isOperand_iff hword (hnames rfl) hclause
    exact ⟨_, hclause, rfl, fun h => absurd (hiff.mp h) (by decide)⟩

end BoundSql.Filter
