import BoundSql.Projection.Recorder
import BoundSql.Proofs.Projection.Placeholders

set_option autoImplicit false

/-!
# Recordings and collected items

Recording a projection adds to the columns and to the parameters what collecting its items gives,
also when it stops half way (`records_record`).
-/

namespace BoundSql

open Projection

/-- The labels that are taken. -/
def Gathered.labels (g : Gathered) : List String := g.columns.map (·.label)

theorem contains_labels (columns : List Column) (name : String) :
    (columns.map (·.label)).contains name = columns.any (·.label == name) := by
  rw [List.contains_eq_any_beq, List.any_map]
  exact congrArg columns.any (funext fun column => BEq.comm)

/-- The lists with the columns and the values of further items. -/
def Gathered.extend (g : Gathered) (items : List Item) : Gathered :=
  ⟨g.columns ++ Projection.columns items, g.params ++ Projection.values items⟩

theorem Gathered.extend_nil (g : Gathered) : g.extend [] = g := by
  simp [extend, Projection.columns, Projection.values]

theorem Gathered.extend_append (g : Gathered) (items others : List Item) :
    (g.extend items).extend others = g.extend (items ++ others) := by
  simp [extend, Projection.columns, Projection.values]

theorem Gathered.labels_extend (g : Gathered) (items : List Item) :
    (g.extend items).labels = g.labels ++ items.map (·.label) := by
  simp [labels, extend, Projection.columns, Item.column]

namespace Projection

open Recording

/-! ## Recordings and collectors -/

/-- What collecting gives, added to the lists, with the error at which it stopped. -/
def Collected.addTo (c : Collected) (g : Gathered) : EStateM.Result CompileError Gathered Unit :=
  match c.error with
  | none => .ok () (g.extend c.items)
  | some e => .error e (g.extend c.items)

/-- The recording adds what the collector gives for the labels that are taken. -/
def Records (recording : Recording) (collector : Collector) : Prop :=
  ∀ g, recording g = (collector g.labels).addTo g

namespace Records

variable {recording recording' : Recording} {collector collector' : Collector}

theorem done : Records (pure ()) Collector.done := by
  intro g
  simp only [Collector.done, Collected.addTo, Gathered.extend_nil]
  rfl

theorem fail (error : CompileError) : Records (throw error) (Collector.fail error) := by
  intro g
  simp only [Collector.fail, Collected.addTo, Gathered.extend_nil]
  rfl

theorem addColumn (item : Item) (h : item.source.value? = none) :
    Records (Recording.addColumn item.column) (Collector.item item) := by
  intro g
  simp [Recording.addColumn, Collector.item, Collected.addTo, Gathered.extend, columns, values, h]

theorem addBound (label : String) (value : Value) :
    Records (do addParam value; Recording.addColumn ⟨label, "?"⟩)
      (Collector.item ⟨label, .bound value⟩) :=
  fun _ => rfl

/-- An item that binds nothing is added unless its label is taken. -/
theorem addUnless {name : String} {item : Item} (h : item.source.value? = none) :
    Records
      (fun g => if g.columns.any (·.label == name) then .ok () g
        else Recording.addColumn item.column g)
      (fun taken => ⟨if taken.contains name then [] else [item], none⟩) := by
  intro g
  have htaken : g.labels.contains name = g.columns.any (·.label == name) :=
    contains_labels g.columns name
  dsimp only
  rw [htaken]
  split
  · simp [Collected.addTo, Gathered.extend_nil]
  · exact Records.addColumn item h g

theorem ofResult {α : Type} {result : Except CompileError α} {next : α → Recording}
    {next' : α → Collector} (h : ∀ a, result = .ok a → Records (next a) (next' a)) :
    Records (Recording.ofResult result next) (Collector.ofResult result next') := by
  unfold Recording.ofResult Collector.ofResult
  cases result with
  | ok a => exact h a rfl
  | error e => exact fail e

theorem andThen (h : Records recording collector) (h' : Records recording' collector') :
    Records (recording >>= fun _ => recording') (collector.andThen collector') := by
  intro g
  simp only [bind, EStateM.bind, h g, Collector.andThen, Collected.addTo]
  cases herror : (collector g.labels).error with
  | some e => rfl
  | none =>
      rw [← Gathered.labels_extend]
      simp only [h' (g.extend _), Collected.addTo, Gathered.extend_append]

theorem all {α : Type} {xs : List α} {recordingOf : α → Recording} {collectorOf : α → Collector}
    (h : ∀ x ∈ xs, Records (recordingOf x) (collectorOf x)) :
    Records (Recording.all (xs.map recordingOf)) (Collector.all (xs.map collectorOf)) := by
  induction xs with
  | nil => exact done
  | cons x xs ih =>
      exact andThen (h x List.mem_cons_self) (ih fun y hy => h y (List.mem_cons_of_mem x hy))

end Records

variable {options : Options} {rowType : TypeRef}

theorem records_recordField (label : String) (e : Expr) :
    Records (recordField rowType label e) (collectField rowType label e) := by
  apply Records.ofResult
  intro shown _
  cases shown with
  | column name => exact .addColumn ⟨label, .column name⟩ rfl
  | bound value => exact .addBound label value
  | null => exact .addColumn ⟨label, .null⟩ rfl

theorem records_recordPublicName (e : Expr) :
    Records (recordPublicName e) (collectPublicName e) := by
  apply Records.ofResult
  intro value? _
  cases value? with
  | none => exact .done
  | some value =>
      cases value with
      | text name =>
          dsimp only
          split
          · exact .done
          · exact Records.addUnless (show (Item.identity name).source.value? = none from rfl)
      | _ => exact .done

theorem records_recordContainer (e : Expr) :
    Records (recordContainer options e) (collectContainer options e) := by
  unfold recordContainer collectContainer
  cases e with
  | record type bindings =>
      dsimp only
      split
      · refine .ofResult fun named _ => .ofResult fun value _ => ?_
        cases publicName? named with
        | none => exact .done
        | some name => exact .addUnless (value?_pairItem name value)
      · exact .done
  | _ => exact .done

mutual

/-- Recording the body of a projection adds the items that are collected from it. -/
theorem records_record :
    ∀ e : Expr, Records (record options rowType e) (collect options rowType e)
  | .const _ => .done
  | .param _ => .done
  | .staticMember _ => .done
  | .member target _ => records_record target
  | .binary _ left right => .andThen (records_record left) (records_record right)
  | .call _ _ args => records_recordAll args
  | .lambda _ _ body _ => records_record body
  | .construct type paramNames args => by
      unfold record collect
      split
      · exact .done
      · split
        · exact .all fun field _ => records_recordField field.1 field.2
        · exact .fail _
  | .record type bindings => by
      unfold record collect
      split
      · exact .all fun part _ => records_recordContainer part
      · exact records_recordBindings bindings
  | .cond test ifTrue ifFalse =>
      .andThen (records_record test) (.andThen (records_record ifTrue) (records_record ifFalse))
termination_by structural e => e

theorem records_recordAll : ∀ es : List Expr,
    Records (recordAll options rowType es) (collectAll options rowType es)
  | [] => .done
  | e :: es => .andThen (records_record e) (records_recordAll es)
termination_by structural es => es

theorem records_recordBindings : ∀ bindings : List (MemberRef × Expr),
    Records (recordBindings options rowType bindings) (collectBindings options rowType bindings)
  | [] => .done
  | (ref, e) :: bindings => by
      refine .andThen ?_ (records_recordBindings bindings)
      split
      · exact records_record e
      · split
        · exact records_recordPublicName e
        · exact records_recordField ref.name e
termination_by structural bindings => bindings

end

end Projection

end BoundSql
