import BoundSql.Proofs.Expr.Parts
import BoundSql.Proofs.Filter.Fallback

set_option autoImplicit false

/-!
# Names of columns in filters

The text of a condition is a row of pieces, and the names that it shows as columns are pieces of
their own.  Each of them is written for one expression of the predicate, in order: for an operand,
for the item of a membership test, for the first text of a comparison or for the fallback of a
conditional.  Only an operand has to be a column of the row for that.  The main statement is
`writtenAs_of_compile`.
-/

namespace BoundSql

/-- Is the expression a conditional? -/
def Expr.isConditional : Expr → Bool
  | .cond _ _ _ => true
  | _ => false

namespace Filter

open Text Writer

variable {rowType : TypeRef} {e : Expr} {o : Operand}

/-! ## Pieces of a text -/

/-- A piece of the text of a condition. -/
inductive Piece where
  /-- A name that is shown as a column. -/
  | column (name : String)
  | placeholder
  | null
  | connective (sign : Connective)
  | opening
  | closing
  /-- Between two alternatives of a membership. -/
  | or
  /-- Behind the column of an alternative that is a placeholder. -/
  | equalsMark
  /-- Behind the column of an alternative that is null. -/
  | equalsNull

/-- The text of a piece. -/
def Piece.text : Piece → String
  | .column name => name
  | .placeholder => " ? "
  | .null => nullText
  | .connective sign => sign.text
  | .opening => "("
  | .closing => ")"
  | .or => " OR "
  | .equalsMark => " = ?"
  | .equalsNull => " = " ++ nullText

/-- The name that a piece shows as a column. -/
def Piece.name? : Piece → Option String
  | .column name => some name
  | _ => none

/-- The text of pieces one after another. -/
def textOf : List Piece → String
  | [] => ""
  | piece :: pieces => piece.text ++ textOf pieces

/-- The names that pieces show as columns, from left to right. -/
def columnNames (pieces : List Piece) : List String := pieces.filterMap Piece.name?

theorem textOf_append (ps qs : List Piece) : textOf (ps ++ qs) = textOf ps ++ textOf qs := by
  induction ps with
  | nil => simp [textOf]
  | cons piece pieces ih => simp [textOf, ih, String.append_assoc]

theorem columnNames_cons (piece : Piece) (pieces : List Piece) :
    columnNames (piece :: pieces) = piece.name?.toList ++ columnNames pieces := by
  cases h : piece.name? <;> simp [columnNames, h]

theorem columnNames_append (ps qs : List Piece) :
    columnNames (ps ++ qs) = columnNames ps ++ columnNames qs :=
  List.filterMap_append

/-- The pieces of one alternative of a membership. -/
def itemPieces (column : String) (item : Value) : List Piece :=
  [.column column, if item.isNull then .equalsNull else .equalsMark]

/-- The pieces of the alternatives of a membership. -/
def membershipPieces (column : String) : List Value → List Piece
  | [] => []
  | [item] => itemPieces column item
  | item :: items => itemPieces column item ++ .or :: membershipPieces column items

/-- The pieces of an operand from left to right. -/
def Operand.pieces : Operand → List Piece
  | .column name => [.column name]
  | .bound _ => [.placeholder]
  | .null => [.null]
  | .blank => []
  | .group left sign right =>
    .opening :: (left.pieces ++ .connective sign :: (right.pieces ++ [.closing]))
  | .membership name items => .opening :: (membershipPieces name items ++ [.closing])

theorem textOf_itemPieces (column : String) (item : Value) :
    textOf (itemPieces column item) = itemText column item := by
  unfold itemPieces itemText
  split <;> simp [textOf, Piece.text, String.append_assoc]

theorem textOf_membershipPieces (column : String) : ∀ items : List Value,
    textOf (membershipPieces column items) = joinWith " OR " (items.map (itemText column))
  | [] => rfl
  | [item] => textOf_itemPieces column item
  | item :: next :: items => by
      have hrest := textOf_membershipPieces column (next :: items)
      simp only [membershipPieces, textOf_append, textOf_itemPieces, textOf, Piece.text, hrest,
        List.map_cons, joinWith, String.append_assoc]

/-- The text of an operand is that of its pieces. -/
theorem textOf_pieces (o : Operand) : textOf o.pieces = o.text := by
  induction o with
  | column name | bound value | null | blank =>
      simp [Operand.pieces, textOf, Piece.text, Operand.text]
  | group left sign right ihLeft ihRight =>
      simp [Operand.pieces, Operand.text, textOf, textOf_append, Piece.text, ihLeft, ihRight,
        String.append_assoc]
  | membership name items =>
      simp [Operand.pieces, Operand.text, textOf, textOf_append, Piece.text,
        textOf_membershipPieces, String.append_assoc]

theorem columnNames_itemPieces (column : String) (item : Value) :
    columnNames (itemPieces column item) = [column] := by
  unfold itemPieces
  split <;> rfl

/-- Every alternative of a membership shows its column once. -/
theorem columnNames_membershipPieces (column : String) : ∀ items : List Value,
    columnNames (membershipPieces column items) = items.map fun _ => column
  | [] => rfl
  | [item] => columnNames_itemPieces column item
  | item :: next :: items => by
      have hrest := columnNames_membershipPieces column (next :: items)
      simp only [membershipPieces, columnNames_append, columnNames_itemPieces, columnNames_cons,
        Piece.name?, hrest]
      rfl

theorem columnNames_ofValue? (value? : Option Value) :
    columnNames (Operand.ofValue? value?).pieces = [] := by
  cases value? <;> rfl

theorem columnNames_group (left right : Operand) (sign : Connective) :
    columnNames (Operand.group left sign right).pieces =
      columnNames left.pieces ++ columnNames right.pieces := by
  have hclosing : columnNames [.closing] = [] := rfl
  simp [Operand.pieces, columnNames_cons, columnNames_append, Piece.name?, hclosing]

theorem columnNames_membership (name : String) (items : List Value) :
    columnNames (Operand.membership name items).pieces = items.map fun _ => name := by
  have hclosing : columnNames [.closing] = [] := rfl
  rw [← columnNames_membershipPieces]
  simp [Operand.pieces, columnNames_cons, columnNames_append, Piece.name?, hclosing]

/-! ## Expressions that are written as columns -/

/-- How an expression comes to be written as a column. -/
inductive Position where
  /-- It stands for itself. -/
  | operand
  /-- Its membership in a list is tested. -/
  | item
  /-- A text is compared with it. -/
  | compared
  /-- A conditional on the left of an operator falls back to it. -/
  | fallback
  deriving DecidableEq

/-- An expression that is written as a column. -/
structure Naming where
  position : Position
  e : Expr

/-- The items of a list literal that can be searched. -/
def searchedItems (list : Expr) : List Value :=
  match listItems list with
  | .ok items => items
  | .error _ => []

/-- The expressions that a filter over rows of a type writes as columns, from left to right.  The
item of a membership test is written once for each item of the list. -/
def namings (rowType : TypeRef) : Expr → List Naming
  | .member target ref =>
    if ref.declaring.sameType rowType then [⟨.operand, .member target ref⟩] else []
  | .binary _ left right =>
    match textCompareArgs? left with
    | some (item, _) => [⟨.compared, item⟩]
    | none =>
      (match left with
        | .cond _ _ ifFalse => [⟨.fallback, ifFalse⟩]
        | _ => namings rowType left) ++ namings rowType right
  | .call _ method [list, item] =>
    if method = Expr.containsMethod then (searchedItems list).map fun _ => ⟨.item, item⟩ else []
  | .lambda _ _ body _ => namings rowType body
  | _ => []

/-- The name that is written for an expression.  It is the name of the member that the expression
reads, or the path of a fallback, and only an operand has to be a column of the row. -/
inductive WrittenAs (rowType : TypeRef) : Naming → String → Prop where
  | operand {e : Expr} {ref : MemberRef} (own : e.isRowMember rowType = true)
      (member : e.asMember? = some ref) : WrittenAs rowType ⟨.operand, e⟩ ref.name
  | item {e : Expr} {ref : MemberRef} (member : e.asMember? = some ref) :
      WrittenAs rowType ⟨.item, e⟩ ref.name
  | compared {e : Expr} {ref : MemberRef} (member : e.asMember? = some ref) :
      WrittenAs rowType ⟨.compared, e⟩ ref.name
  | fallback {e : Expr} {path : String} (dotted : e.dottedPath? = some path) :
      WrittenAs rowType ⟨.fallback, e⟩ path

/-- The expression is a column of the row, and the name is that of the column. -/
def NamesColumn (rowType : TypeRef) (n : Naming) (name : String) : Prop :=
  n.e.isRowMember rowType = true ∧ ∃ ref, n.e.asMember? = some ref ∧ ref.name = name

theorem namings_of_literal (form : isLiteralForm e = true)
    (foreign : e.isRowMember rowType = false) : namings rowType e = [] := by
  cases e with
  | const _ | staticMember _ => rfl
  | member target ref =>
      have own : ref.declaring.sameType rowType = false := foreign
      simp [namings, own]
  | _ => simp [isLiteralForm] at form

/-- Each name that a reading shows as a column is written for one expression, in order. -/
theorem writtenAs_of_reads (h : Reads rowType e o) :
    List.Forall₂ (WrittenAs rowType) (namings rowType e) (columnNames o.pieces) := by
  induction h with
  | @column target ref own =>
      have hoperand : WrittenAs rowType ⟨.operand, .member target ref⟩ ref.name :=
        .operand own rfl
      simpa [namings, own, Operand.pieces, columnNames, Piece.name?] using hoperand
  | literal form foreign resolved =>
      rw [namings_of_literal form foreign, columnNames_ofValue?]
      exact .nil
  | row => exact .nil
  | @textCompare op left right item value ref sign value? compared member signed resolved =>
      have hcompared : WrittenAs rowType ⟨.compared, item⟩ ref.name := .compared member
      rw [columnNames_group, columnNames_ofValue?]
      simpa [namings, compared, Operand.pieces, columnNames, Piece.name?] using hcompared
  | fallback dotted signed reads ih =>
      rw [columnNames_group]
      exact .cons (.fallback dotted) ih
  | @binary op left right first second sign plain readsLeft signed readsRight ihLeft ihRight =>
      rw [columnNames_group]
      simp only [namings, plain]
      split
      · exact absurd readsLeft not_reads_cond
      · exact List.rel_append ihLeft ihRight
  | @membership declaring list item items ref listed member =>
      rw [columnNames_membership]
      simp only [namings, searchedItems, listed, if_true]
      rw [List.forall₂_map_left_iff, List.forall₂_map_right_iff]
      exact List.forall₂_same.mpr fun _ _ => .item member
  | lambda _ ih => exact ih

/-! ## Predicates -/

theorem plain_of_child {child : Expr} (h : ∀ part ∈ e.preorder, part.isConditional = false)
    (hchild : child ∈ e.children) : ∀ part ∈ child.preorder, part.isConditional = false :=
  fun part hpart => h part (Expr.preorder_subset_of_child hchild hpart)

/-- Without a conditional nothing is written as a fallback. -/
theorem position_ne_fallback : ∀ {e : Expr}, (∀ part ∈ e.preorder, part.isConditional = false) →
    ∀ n ∈ namings rowType e, n.position ≠ .fallback
  | .member target ref, _, n, hn => by
      unfold namings at hn
      split at hn
      · obtain rfl := List.mem_singleton.mp hn
        simp
      · simp at hn
  | .binary op left right, h, n, hn => by
      have hleft : ∀ part ∈ left.preorder, part.isConditional = false :=
        plain_of_child h (by simp [Expr.children])
      have hright : ∀ part ∈ right.preorder, part.isConditional = false :=
        plain_of_child h (by simp [Expr.children])
      unfold namings at hn
      split at hn
      · obtain rfl := List.mem_singleton.mp hn
        simp
      · rcases List.mem_append.mp hn with hn | hn
        · split at hn
          · exact absurd (hleft _ (Expr.self_mem_preorder _)) (by simp [Expr.isConditional])
          · exact position_ne_fallback hleft n hn
        · exact position_ne_fallback hright n hn
  | .call declaring method [list, item], _, n, hn => by
      unfold namings at hn
      split at hn
      · obtain ⟨_, -, rfl⟩ := List.mem_map.mp hn
        simp
      · simp at hn
  | .lambda p returns body shaper, h, n, hn =>
      have hbody : ∀ part ∈ body.preorder, part.isConditional = false :=
        plain_of_child h (by simp [Expr.children])
      position_ne_fallback hbody n hn
  | .const _, _, n, hn | .param _, _, n, hn | .staticMember _, _, n, hn
  | .record _ _, _, n, hn | .construct _ _ _, _, n, hn | .cond _ _ _, _, n, hn
  | .call _ _ [], _, n, hn | .call _ _ [_], _, n, hn | .call _ _ (_ :: _ :: _ :: _), _, n, hn => by
      simp [namings] at hn

/-- Without fallbacks, the names that are written are those of columns exactly if the items of
membership tests and the texts that are compared are columns. -/
theorem forall₂_namesColumn_iff {ns : List Naming} {names : List String}
    (h : List.Forall₂ (WrittenAs rowType) ns names) (hplain : ∀ n ∈ ns, n.position ≠ .fallback) :
    List.Forall₂ (NamesColumn rowType) ns names ↔
      ∀ n ∈ ns, n.position ≠ .operand → n.e.isRowMember rowType = true := by
  induction h with
  | nil => simp
  | @cons n name ns names hn _ ih =>
      rw [List.forall₂_cons, List.forall_mem_cons,
        ih fun m hm => hplain m (List.mem_cons_of_mem n hm)]
      refine and_congr_left' ?_
      cases hn with
      | operand own member => simp [NamesColumn, own, member]
      | item member | compared member => simp [NamesColumn, member]
      | fallback dotted => exact absurd rfl (hplain _ List.mem_cons_self)

/-- A membership test of a member is compiled like that of the column with the same name. -/
theorem operand_contains_eq {declaring : TypeRef} {list item : Expr} {ref : MemberRef}
    (member : item.asMember? = some ref) :
    operand rowType (.call declaring Expr.containsMethod [list, item]) =
      operand rowType
        (.call declaring Expr.containsMethod [list, pathColumn rowType [ref.name]]) := by
  simp only [operand, if_true, membership, member]
  rfl

/-- A comparison of a member with a text is compiled like that of the column with the same name. -/
theorem operand_textCompare_eq {op : BinaryOp} {item value right : Expr} {ref : MemberRef}
    (member : item.asMember? = some ref) :
    operand rowType (.binary op (.textCompare item value) right) =
      operand rowType (.binary op (.textCompare (pathColumn rowType [ref.name]) value) right) := by
  have hcolumn : comparedColumn item = comparedColumn (pathColumn rowType [ref.name]) := by
    simp only [comparedColumn, member]
    rfl
  have hcompared : textCompareArgs? (.textCompare item value) = some (item, value) := rfl
  rw [operand_binary_of_some hcompared, hcolumn]
  rfl

/-- Which names a predicate is written with.

* The names that its text shows as columns are written each for one expression, in order.  An
  operand is a column of the row, and the item of a membership test or the first text of a
  comparison is a member of any kind.
* Without a conditional, all names are those of columns of the row exactly if all items of
  membership tests and all texts that are compared are such columns.
* A membership test or a comparison that begins with a member is compiled as it would be with the
  column of the row that has the name of the member. -/
theorem writtenAs_of_compile (rowType : TypeRef) (params : List Value) :
    (∀ predicate w text, (start params).compile rowType predicate = (w, .ok (some text)) →
      ∃ (f : Lambda) (o : Operand), predicate.asLambda? = some f ∧
        clause? rowType predicate = .ok (some o) ∧ textOf o.pieces = text ∧
        List.Forall₂ (WrittenAs rowType) (namings rowType f.body) (columnNames o.pieces) ∧
        ((∀ part ∈ f.body.preorder, part.isConditional = false) →
          (List.Forall₂ (NamesColumn rowType) (namings rowType f.body) (columnNames o.pieces) ↔
            ∀ n ∈ namings rowType f.body, n.position ≠ .operand →
              n.e.isRowMember rowType = true))) ∧
    ∀ p shaper item ref, item.asMember? = some ref →
      (∀ declaring list,
        (start params).compile rowType
            (.lambda p .bool (.call declaring Expr.containsMethod [list, item]) shaper) =
          (start params).compile rowType
            (.lambda p .bool (.call declaring Expr.containsMethod
              [list, pathColumn rowType [ref.name]]) shaper)) ∧
      ∀ op value right,
        (start params).compile rowType
            (.lambda p .bool (.binary op (.textCompare item value) right) shaper) =
          (start params).compile rowType
            (.lambda p .bool (.binary op (.textCompare (pathColumn rowType [ref.name]) value) right)
              shaper) := by
  constructor
  · intro predicate w text h
    obtain ⟨o, hclause, -, rfl⟩ := compile_eq_some_iff.mp h
    obtain ⟨f, hlambda, -, hreads⟩ := clause?_eq_some_iff.mp hclause
    have hnames := writtenAs_of_reads hreads
    refine ⟨f, o, hlambda, hclause, textOf_pieces o, hnames, fun hplain => ?_⟩
    exact forall₂_namesColumn_iff hnames (position_ne_fallback hplain)
  · intro p shaper item ref member
    refine ⟨fun declaring list => ?_, fun op value right => ?_⟩
    · rw [compile_predicate, compile_predicate, operand_contains_eq member]
    · rw [compile_predicate, compile_predicate, operand_textCompare_eq member]

/-- Rows with a number. -/
def columnedType : TypeRef := .record "Person" [("Id", .scalar .int)] []

/-- A row with a number. -/
def columnedRow : Expr := .param ⟨"x", columnedType⟩

/-- A captured variable of the query. -/
def capturedLimit : Expr := .captured (.object [("limit", .integer 5)]) "limit"

/-- The number of a row is 7, and an item is in a list. -/
def limitedTest (item : Expr) : Expr :=
  .predicateOver columnedRow (.binary .andAlso (.contains (.const (.array [.integer 1])) item)
    (.binary .equal (columnedRow.access "Id") (.const (.integer 7))))

/-- A captured variable whose membership is tested is written as a column, and not all names of the
text are columns of the row. -/
theorem writtenAs_of_compile_limitedTest :
    ∃ (f : Lambda) (o : Operand), (limitedTest capturedLimit).asLambda? = some f ∧
      (start []).compile columnedType (limitedTest capturedLimit) =
        (start [.integer 1, .integer 7], .ok (some "((limit = ?) AND (Id =  ? ))")) ∧
      columnNames o.pieces = ["limit", "Id"] ∧
      List.Forall₂ (WrittenAs columnedType) (namings columnedType f.body) (columnNames o.pieces) ∧
      ¬ List.Forall₂ (NamesColumn columnedType) (namings columnedType f.body)
        (columnNames o.pieces) ∧
      (start []).compile columnedType
          (.predicateOver columnedRow (.contains (.const (.array [.integer 1])) capturedLimit)) =
        (start []).compile columnedType
          (.predicateOver columnedRow (.contains (.const (.array [.integer 1]))
            (pathColumn columnedType ["limit"]))) := by
  have hcompile : (start []).compile columnedType (limitedTest capturedLimit) =
      (start [.integer 1, .integer 7], .ok (some "((limit = ?) AND (Id =  ? ))")) := rfl
  obtain ⟨hnames, hsame⟩ := writtenAs_of_compile columnedType []
  obtain ⟨f, o, hlambda, hclause, -, hwritten, hiff⟩ := hnames _ _ _ hcompile
  obtain rfl := Option.some.inj hlambda
  obtain rfl := Option.some.inj (Except.ok.inj hclause)
  refine ⟨_, _, rfl, hcompile, rfl, hwritten, fun hall => ?_, ?_⟩
  · have hforeign := (hiff (by decide)).mp hall ⟨.item, capturedLimit⟩ List.mem_cons_self
    exact absurd (hforeign (by decide)) (by decide)
  · exact (hsame columnedRow.toParameter none capturedLimit _ rfl).1 _ _

end Filter

end BoundSql
