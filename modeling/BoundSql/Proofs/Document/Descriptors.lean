import BoundSql.Command.Run
import BoundSql.Proofs.Document.DeclaredTypes

set_option autoImplicit false

/-!
# The dataset that is found

The dataset of a chain is looked up as the first constant of its tree.  A chain of operators holds
the dataset from which it starts in front of every argument, so that no constant of an argument is
taken for it, be it a dataset too.  Hence a chain compiles alike whether its dataset is looked up or
handed over, and the query of a document is one of the dataset and the row type that the document
names (`root_eq_descriptor`).
-/

namespace BoundSql

namespace Query

/-- A chain whose dataset is found compiles as a query of it, to the same statement or with the same
cause of refusal. -/
theorem compile_of_root {options : Options} {chain : Expr} {d : Descriptor}
    (h : chain.root = .ok d) : compile options chain = compileFor options chain d := by
  rw [compile, h]
  rfl

end Query

namespace Document

theorem requiredText_eq_ok_iff {members : List (String × Json)} {key text : String} :
    requiredText members key = .ok text ↔ textAt? members key = some text := by
  unfold requiredText
  cases textAt? members key <;> simp

/-- The dataset of a document that is read is the one that it names. -/
theorem dataset_of_ofMembersIn {visit : List TypeDefinition → List String}
    {members : List (String × Json)} {doc : Document} (h : ofMembersIn visit members = .ok doc) :
    textAt? members "dataset" = some doc.descriptor.dataset := by
  simp only [ofMembersIn, bind_eq_ok_iff] at h
  obtain ⟨dataset, hdataset, name, -, definitions, -, table, -, rowType, -, closure, -, conditions,
    -, selections, -, orderings, -, h⟩ := h
  obtain rfl := Except.ok.inj h
  exact requiredText_eq_ok_iff.mp hdataset

/-- In the chain of a document its dataset is found. -/
theorem root_chain (doc : Document) : doc.chain.root = .ok doc.descriptor :=
  Expr.root_applyAll doc.descriptor doc.operators

/-- The dataset that is looked up in a chain is the one from which it was started.

* Whatever operators a chain has and whatever constants their arguments hold, the dataset is found,
  and the chain compiles as it does for this dataset, also where it is refused.
* In the chain of a document that is read, in whatever order its types are built, the dataset is
  found that the document names, with the row type that it names and declares.
* The text of a document is compiled as its chain is. -/
theorem root_eq_descriptor :
    (∀ (options : Options) (d : Descriptor) (operators : List (QueryOperator × Expr)),
      ((Expr.ofDescriptor d).applyAll operators).root = .ok d ∧
        Query.compile options ((Expr.ofDescriptor d).applyAll operators) =
          Query.compileFor options ((Expr.ofDescriptor d).applyAll operators) d) ∧
    (∀ visit members doc, ofMembersIn visit members = .ok doc →
      ∃ dataset rowType definitions table element,
        textAt? members "dataset" = some dataset ∧ textAt? members "row_type" = some rowType ∧
        TypeDefinition.readAll (members.lookup "types") = .ok definitions ∧
        TypeTable.buildInOrder definitions (visit definitions) = .ok table ∧
        table.lookup rowType = some element ∧ doc.descriptor = ⟨dataset, element⟩ ∧
        doc.chain.root = .ok doc.descriptor) ∧
    ∀ (o : Command.CompileOptions) text json doc, Json.parse text = .ok json →
      ofJson json = .ok doc → o.validateOnly = false →
      Command.compileText o (some text) =
        match Query.compile o.queryOptions doc.chain with
        | .error cause => .error (.compile cause)
        | .ok statement => .ok (.compiled statement) := by
  refine ⟨?_, ?_, ?_⟩
  · intro options d operators
    have hroot := Expr.root_applyAll d operators
    exact ⟨hroot, Query.compile_of_root hroot⟩
  · intro visit members doc hread
    obtain ⟨rowType, definitions, table, hrow, hdefinitions, hbuild, hlookup⟩ :=
      exists_table_of_ofMembersIn hread
    exact ⟨_, rowType, definitions, table, _, dataset_of_ofMembersIn hread, hrow, hdefinitions,
      hbuild, hlookup, rfl, root_chain doc⟩
  · intro o text json doc hparse hread hcompiles
    rw [Query.compile_of_root (root_chain doc)]
    simp only [Command.compileText, hparse, hread, hcompiles]
    rfl

section

/-- Rows with one property. -/
def plainType : TypeRef := .record "P" [("A", .scalar .int)] []

/-- A chain over these rows, whose arguments hold another dataset. -/
def chainWithOther : Expr :=
  let row : Expr := .param ⟨"x", plainType⟩
  let other := Expr.ofDescriptor ⟨"others", plainType⟩
  (Expr.ofDescriptor ⟨"d", plainType⟩).applyAll
    [(.filter, row.predicateOver (.binary .equal (row.access "A") other)), (.select, other)]

/-- A document about these rows. -/
def plainText : String :=
  "\x7b\"dataset\":\"d\",\"row_type\":\"P\"," ++
    "\"types\":\x7b\"P\":\x7b\"properties\":\x7b\"A\":\"int\"\x7d\x7d\x7d\x7d"

def plainMembers : List (String × Json) :=
  [("dataset", .text "d"), ("row_type", .text "P"),
    ("types", .object [("P", .object [("properties", .object [("A", .text "int")])])])]

set_option maxRecDepth 30000 in
theorem parse_plainText : Json.parse plainText = .ok (.object plainMembers) := by
  cbv

theorem build_plainType :
    TypeTable.buildInOrder
      [TypeDefinition.read "P" [("properties", .object [("A", .text "int")])]] ["P"] =
        .ok [("P", plainType)] := by
  cbv

theorem ofMembers_plainMembers : ofMembers plainMembers = .ok ⟨⟨"d", plainType⟩, []⟩ := by
  simp only [ofMembers, ofMembersIn, bind_eq_ok_iff]
  exact ⟨_, rfl, _, rfl, _, rfl, _, build_plainType, _, rfl, _, rfl, _, rfl, _, rfl, _, rfl, rfl⟩

/-- The other dataset is not taken for that of the chain, which is refused for another reason, and
the text of the document is compiled over the dataset that it names. -/
theorem root_eq_descriptor_plain :
    chainWithOther.root = .ok ⟨"d", plainType⟩ ∧
      Query.compile Options.default chainWithOther =
        .error (.projectionNotLambda (Expr.ofDescriptor ⟨"others", plainType⟩)) ∧
      (∃ doc, ofMembers plainMembers = .ok doc ∧ doc.chain.root = .ok ⟨"d", plainType⟩) ∧
      ∃ s, Command.compileText ⟨false, false, none⟩ (some plainText) = .ok (.compiled s) ∧
        s.sql = "SELECT A AS A FROM d" := by
  obtain ⟨hchain, hread, htext⟩ := root_eq_descriptor
  obtain ⟨hroot, hcompile⟩ := hchain Options.default ⟨"d", plainType⟩ _
  refine ⟨hroot, hcompile.trans rfl, ⟨_, ofMembers_plainMembers, ?_⟩, ?_⟩
  · obtain ⟨_, _, _, _, _, -, -, -, -, -, -, hdoc⟩ := hread _ _ _ ofMembers_plainMembers
    exact hdoc
  · rw [htext ⟨false, false, none⟩ _ _ _ parse_plainText ofMembers_plainMembers rfl]
    exact ⟨_, rfl, rfl⟩

end

end Document

end BoundSql
