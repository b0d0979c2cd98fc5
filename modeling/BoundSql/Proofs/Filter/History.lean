import BoundSql.Expr.Build
import BoundSql.Filter.Writer
import BoundSql.Proofs.Filter.Rules

set_option autoImplicit false

/-!
# Writers have no memory

A writer gives every predicate the text that a new writer gives it, whatever it has compiled before
and however that ended.  An action of a writer only ever adds: to the text and to the values.  Hence
a clause that is written to its end stands in the text alone, and the values of one that is not can
be taken back.
-/

namespace BoundSql.Filter

open Writing

/-! ## Additions -/

/-- The action adds a text and values and comes to its end. -/
def Adds (action : Writing) (text : String) (values : List Value) : Prop :=
  ∀ w, action w = .ok () ⟨w.text ++ text, w.params ++ values⟩

/-- The action stops at a cause, and has only added before. -/
def Stops (action : Writing) (cause : CompileError) : Prop :=
  ∀ w, ∃ text values, action w = .error cause ⟨w.text ++ text, w.params ++ values⟩

/-- The action writes the operand that an expression is judged to be, or stops at the cause of its
refusal. -/
def Follows (action : Writing) : Except CompileError Operand → Prop
  | .ok o => Adds action o.text o.values
  | .error cause => Stops action cause

theorem adds_nothing : Adds (pure ()) "" [] := by
  intro w
  simp [pure, EStateM.pure]

theorem adds_put (piece : String) : Adds (put piece) piece [] := by
  intro w
  simp [put]

theorem adds_bindValue (value : Value) : Adds (bindValue value) "" [value] := by
  intro w
  simp [bindValue]

theorem stops_throw (cause : CompileError) : Stops (throw cause) cause := by
  intro w
  refine ⟨"", [], ?_⟩
  rw [String.append_empty, List.append_nil]
  rfl

section

variable {first second : Writing} {text text' : String} {values values' : List Value}
  {cause : CompileError}

theorem Adds.andThen (h : Adds first text values) (h' : Adds second text' values') :
    Adds (first >>= fun _ => second) (text ++ text') (values ++ values') := by
  intro w
  simp only [bind, EStateM.bind, h w, h' _, String.append_assoc, List.append_assoc]

theorem Stops.andThen (h : Stops first cause) : Stops (first >>= fun _ => second) cause := by
  intro w
  obtain ⟨text, values, hstop⟩ := h w
  exact ⟨text, values, by simp only [bind, EStateM.bind, hstop]⟩

theorem Adds.andThen_stops (h : Adds first text values) (h' : Stops second cause) :
    Stops (first >>= fun _ => second) cause := by
  intro w
  obtain ⟨more, moreValues, hstop⟩ := h' ⟨w.text ++ text, w.params ++ values⟩
  refine ⟨text ++ more, values ++ moreValues, ?_⟩
  simp only [bind, EStateM.bind, h w, hstop, String.append_assoc, List.append_assoc]

end

/-! ## Operands -/

theorem follows_writeLiteral (e : Expr) : Follows (writeLiteral e) (literal e) := by
  unfold writeLiteral literal ofResult
  cases e.resolve with
  | error cause => exact stops_throw cause
  | ok value? =>
      cases value? with
      | none => exact adds_put nullText
      | some value => exact (adds_put " ? ").andThen (adds_bindValue value)

theorem adds_writeItem (column : String) (item : Value) :
    Adds (writeItem column item) (itemText column item) ([item].filter (!·.isNull)) := by
  unfold writeItem itemText
  cases hnull : item.isNull with
  | true =>
      have hitem := (adds_put column).andThen (adds_put (" = " ++ nullText))
      simpa [hnull, String.append_assoc] using hitem
  | false =>
      have hitem := (adds_put column).andThen ((adds_put " = ?").andThen (adds_bindValue item))
      simpa [hnull] using hitem

theorem adds_writeItems (column : String) : ∀ items : List Value,
    Adds (writeItems column items) (Text.joinWith " OR " (items.map (itemText column)))
      (items.filter (!·.isNull))
  | [] => adds_nothing
  | [item] => adds_writeItem column item
  | item :: next :: items => by
      have hrest := (adds_put " OR ").andThen (adds_writeItems column (next :: items))
      have hitems := (adds_writeItem column item).andThen hrest
      have hvalues : [item].filter (!·.isNull) ++ ([] ++ (next :: items).filter (!·.isNull)) =
          (item :: next :: items).filter (!·.isNull) := by
        rw [List.nil_append, ← List.filter_append, List.singleton_append]
      rw [hvalues] at hitems
      simpa [writeItems, Text.joinWith, String.append_assoc] using hitems

theorem follows_writeMembership : ∀ args : List Expr,
    Follows (writeMembership args) (membership args)
  | [list, item] => by
      unfold writeMembership membership ofResult
      dsimp only
      cases listItems list with
      | error cause => exact stops_throw cause
      | ok items =>
          cases hmember : item.asMember? with
          | none => exact stops_throw (.containsNotMember item)
          | some ref =>
              have hitems := (adds_writeItems ref.name items).andThen (adds_put ")")
              have hgroup := (adds_put "(").andThen hitems
              simpa [bind, Except.bind, Follows, Operand.text, Operand.values,
                String.append_assoc] using hgroup
  | [] => stops_throw _
  | [_] => stops_throw _
  | _ :: _ :: _ :: _ => stops_throw _

theorem follows_writeColumn {column : Except CompileError Operand}
    (h : ∀ o, column = .ok o → o.values = []) : Follows (writeColumn column) column := by
  unfold writeColumn ofResult
  cases column with
  | error cause => exact stops_throw cause
  | ok o => simpa [Follows, h o rfl] using adds_put o.text

/-- A group is written from left to right, and its parts are judged in that order too. -/
theorem follows_writeGroup {rowType : TypeRef} {op : BinaryOp} {e : Expr} {left right : Writing}
    {x y : Except CompileError Operand} (hleft : Follows left x) (hright : Follows right y) :
    Follows (writeGroup left (writeSign rowType op e) right) (do
      let first ← x
      let sign ← connective rowType op e
      return .group first sign (← y)) := by
  unfold writeGroup writeSign ofResult
  have hopen := adds_put "("
  cases x with
  | error cause => exact hopen.andThen_stops hleft.andThen
  | ok first =>
      cases connective rowType op e with
      | error cause =>
          have hsign : Stops (throw cause) cause := stops_throw cause
          exact hopen.andThen_stops (Adds.andThen_stops hleft hsign.andThen)
      | ok sign =>
          have hsign := adds_put sign.text
          cases y with
          | error cause =>
              have hstop : Stops (right >>= fun _ => put ")") cause := Stops.andThen hright
              exact hopen.andThen_stops (Adds.andThen_stops hleft (hsign.andThen_stops hstop))
          | ok second =>
              have hend := Adds.andThen hright (adds_put ")")
              have hgroup := hopen.andThen (Adds.andThen hleft (hsign.andThen hend))
              simpa [bind, Except.bind, pure, Except.pure, Follows, Operand.text, Operand.values,
                String.append_assoc] using hgroup

/-- Writing an expression does what the judgement of it says. -/
theorem follows_write (rowType : TypeRef) :
    ∀ e : Expr, Follows (write rowType e) (operand rowType e)
  | .const value => follows_writeLiteral (.const value)
  | .param _ => adds_nothing
  | .member target ref => by
      unfold write operand
      split
      · exact adds_put ref.name
      · exact follows_writeLiteral (.member target ref)
  | .staticMember ref => follows_writeLiteral (.staticMember ref)
  | .binary op left right => by
      unfold write
      cases hcompare : textCompareArgs? left with
      | some args =>
          obtain ⟨item, value⟩ := args
          rw [operand_binary_of_some hcompare]
          refine follows_writeGroup (follows_writeColumn ?_) (follows_writeLiteral value)
          intro o ho
          obtain ⟨ref, -, rfl⟩ := comparedColumn_eq_ok_iff.mp ho
          rfl
      | none =>
          rw [operand_binary_of_none hcompare]
          refine follows_writeGroup ?_ (follows_write rowType right)
          have hleft := follows_write rowType left
          clear hcompare
          cases left with
          | cond test ifTrue ifFalse =>
              refine follows_writeColumn ?_
              intro o ho
              obtain ⟨path, -, rfl⟩ := fallback_eq_ok_iff.mp ho
              rfl
          | _ => exact hleft
  | .call declaring method args => by
      unfold write operand
      split
      · exact follows_writeMembership args
      · exact stops_throw _
  | .lambda _ _ body _ => follows_write rowType body
  | .record _ _ => stops_throw _
  | .construct _ _ _ => stops_throw _
  | .cond _ _ _ => stops_throw _

/-! ## Predicates one after another -/

namespace Writer

/-- A writer with nothing under way gives the text of the clause and keeps its values.  Without a
clause it stays as it was. -/
theorem compile_start (rowType : TypeRef) (params : List Value) (predicate : Expr) :
    (start params).compile rowType predicate =
      match clause? rowType predicate with
      | .ok (some clause) => (start (params ++ clause.values), .ok (some clause.text))
      | .ok none => (start params, .ok none)
      | .error cause => (start params, .error cause) := by
  unfold compile clause?
  cases predicate.asLambda? with
  | none => rfl
  | some f =>
      cases hreturns : f.returns.isBool with
      | false => simp [hreturns]
      | true =>
          have hwrite := follows_write rowType f.body
          cases hbody : operand rowType f.body with
          | ok clause =>
              rw [hbody] at hwrite
              simp [start, hreturns, hbody, hwrite ⟨"", params⟩, Functor.map, Except.map]
          | error cause =>
              rw [hbody] at hwrite
              obtain ⟨text, values, hstop⟩ := hwrite ⟨"", params⟩
              simp [start, hreturns, hbody, hstop, Functor.map, Except.map]

/-- A predicate over rows gets the text of its body, or is refused as its body is. -/
theorem compile_predicate (rowType : TypeRef) (params : List Value) (p : Parameter) (body : Expr)
    (shaper : Option RowFunction) :
    (start params).compile rowType (.lambda p .bool body shaper) =
      match operand rowType body with
      | .ok o => (start (params ++ o.values), .ok (some o.text))
      | .error cause => (start params, .error cause) := by
  have hclause : clause? rowType (.lambda p .bool body shaper) =
      some <$> operand rowType body := rfl
  rw [compile_start, hclause]
  cases operand rowType body <;> rfl

/-- A predicate gets a text exactly when it has a clause, and the writer then holds the values of
the clause too. -/
theorem compile_eq_some_iff {rowType : TypeRef} {params : List Value} {predicate : Expr}
    {w : Writer} {text : String} :
    (start params).compile rowType predicate = (w, .ok (some text)) ↔
      ∃ o, clause? rowType predicate = .ok (some o) ∧ start (params ++ o.values) = w ∧
        o.text = text := by
  rw [compile_start]
  cases clause? rowType predicate with
  | error cause => simp
  | ok clause => cases clause <;> simp

/-- What a new writer without any values makes of a predicate. -/
def alone (rowType : TypeRef) (predicate : Expr) : Writer × Except CompileError (Option String) :=
  (start []).compile rowType predicate

/-- The values that a new writer binds for a predicate, if it gives it a text. -/
def boundAlone (rowType : TypeRef) (predicate : Expr) : List Value :=
  match (alone rowType predicate).2 with
  | .ok (some _) => (alone rowType predicate).1.params
  | _ => []

theorem boundAlone_eq_nil {rowType : TypeRef} {predicate : Expr}
    (h : ∀ text, (alone rowType predicate).2 ≠ .ok (some text)) :
    boundAlone rowType predicate = [] := by
  unfold boundAlone
  split
  · rename_i text htext
    exact absurd htext (h text)
  · rfl

/-- The values that are there before neither change what a predicate gives nor are changed by it. -/
theorem compile_eq_alone (rowType : TypeRef) (params : List Value) (predicate : Expr) :
    (start params).compile rowType predicate =
      (start (params ++ boundAlone rowType predicate), (alone rowType predicate).2) := by
  unfold boundAlone alone
  rw [compile_start, compile_start]
  cases clause? rowType predicate with
  | error cause => simp
  | ok clause =>
      cases clause with
      | none => simp
      | some clause => simp [start]

theorem compileAll_start (rowType : TypeRef) (predicates : List Expr) :
    ∀ params : List Value, (start params).compileAll rowType predicates =
      (start (params ++ predicates.flatMap (boundAlone rowType)),
        predicates.map fun predicate => (alone rowType predicate).2) := by
  induction predicates with
  | nil =>
      intro params
      simp [compileAll]
  | cons predicate predicates ih =>
      intro params
      simp [compileAll, compile_eq_alone, ih]

/-- A new writer compiles predicates one after another over values that are there already.

* Each predicate gives what it gives alone.
* After every one of them the writer holds the values that were there, then those that the
  predicates with a text bind alone, in order, and no text.
* A predicate that gives no text, be it refused at any depth or passed over, leaves the writer as it
  was. -/
theorem compileAll_eq_alone (rowType : TypeRef) (params : List Value) (predicates : List Expr) :
    ((start params).compileAll rowType predicates).2 =
        predicates.map (fun predicate => (alone rowType predicate).2) ∧
      (∀ n, ((start params).compileAll rowType (predicates.take n)).1 =
        start (params ++ (predicates.take n).flatMap (boundAlone rowType))) ∧
      ∀ n predicate, predicates[n]? = some predicate →
        (∃ text, (alone rowType predicate).2 = .ok (some text)) ∨
          ((start params).compileAll rowType (predicates.take (n + 1))).1 =
            ((start params).compileAll rowType (predicates.take n)).1 := by
  refine ⟨by rw [compileAll_start], fun n => by rw [compileAll_start], ?_⟩
  intro n predicate hpredicate
  rw [compileAll_start, compileAll_start, List.take_add_one, hpredicate]
  by_cases htext : ∃ text, (alone rowType predicate).2 = .ok (some text)
  · exact .inl htext
  · right
    have hbound : boundAlone rowType predicate = [] := by
      apply boundAlone_eq_nil
      intro text heq
      exact htext ⟨text, heq⟩
    simp [hbound]

section

/-- Rows with a number. -/
def numberedType : TypeRef := .record "Person" [("Id", .scalar .int)] []

/-- A row with a number. -/
def numberedRow : Expr := .param ⟨"x", numberedType⟩

/-- The test of the number of a row against 7. -/
def numberTest : Expr := .binary .equal (numberedRow.access "Id") (.const (.integer 7))

/-- A test that is refused after its left side has bound a value. -/
def halfTest : Expr :=
  .binary .andAlso numberTest (.binary .add (numberedRow.access "Id") (.const (.integer 1)))

/-- A refused predicate and a predicate after it. -/
def halfThenWhole : List Expr :=
  [numberedRow.predicateOver halfTest, numberedRow.predicateOver numberTest]

theorem compileAll_eq_alone_halfThenWhole :
    (∃ written, write numberedType halfTest (start []) =
        .error (.unsupportedOperator .add) written ∧ written.params = [.integer 7]) ∧
      ((start [.text "k"]).compileAll numberedType halfThenWhole).2 =
        [.error (.unsupportedOperator .add), .ok (some "(Id =  ? )")] ∧
      ((start [.text "k"]).compileAll numberedType halfThenWhole).1 =
        start [.text "k", .integer 7] := by
  obtain ⟨hresults, hwriter, -⟩ := compileAll_eq_alone numberedType [.text "k"] halfThenWhole
  exact ⟨⟨_, rfl, rfl⟩, hresults, hwriter 2⟩

end

end Writer

end BoundSql.Filter
