import BoundSql.Proofs.Query.Placeholders

set_option autoImplicit false

/-!
# Interleaved operators

Filters, projections and orderings each add to a part of a query of their own, and look at no other
part.  So steps of different kinds can change places, and a chain compiles to what its filters, then
its projections, then its orderings compile to.  Two chains with the same operators of each kind
compile to the same statement, or are both refused (`agree_compile_of_ofPart_eq`).
-/

namespace BoundSql

/-- The parts of a query. -/
inductive QueryPart where
  | condition
  | selection
  | ordering
  deriving DecidableEq

/-- The part of a query that an operator adds to. -/
def QueryOperator.part : QueryOperator → QueryPart
  | .filter => .condition
  | .select => .selection
  | .orderBy _ | .thenBy _ => .ordering

namespace Query

/-- The first progress with one part of the second. -/
def Progress.withPart (part : QueryPart) (p q : Progress) : Progress :=
  match part with
  | .condition => { p with filters := q.filters }
  | .selection => { p with projection := q.projection }
  | .ordering => { p with order := q.order }

variable {options : Options} {rowType : TypeRef} {p q : Progress} {s t : Step}
  {op other : QueryOperator}

/-- A step changes the part that its operator adds to, and no other. -/
theorem Takes.eq_withPart (h : Takes options rowType p s q)
    (named : QueryOperator.ofMethod? s.method = some op) : q = p.withPart op.part q := by
  have hop {found : QueryOperator} (hfound : QueryOperator.ofMethod? s.method = some found) :
      op = found := Option.some.inj (named.symm.trans hfound)
  cases h with
  | filter hfound _ _ _ => obtain rfl := hop hfound; rfl
  | skip hfound _ _ => obtain rfl := hop hfound; rfl
  | select hfound _ _ _ => obtain rfl := hop hfound; rfl
  | orderBy hfound _ _ => obtain rfl := hop hfound; rfl
  | thenBy hfound _ _ => obtain rfl := hop hfound; rfl
  | orderByOff hfound _ => obtain rfl := hop hfound; rfl
  | thenByOff hfound _ => obtain rfl := hop hfound; rfl

/-- A step looks only at the part that its operator adds to. -/
theorem Takes.withPart (h : Takes options rowType p s q)
    (named : QueryOperator.ofMethod? s.method = some op) (r : Progress) :
    Takes options rowType (r.withPart op.part p) s (r.withPart op.part q) := by
  have hop {found : QueryOperator} (hfound : QueryOperator.ofMethod? s.method = some found) :
      op = found := Option.some.inj (named.symm.trans hfound)
  cases h with
  | filter hfound argument tests reads =>
      obtain rfl := hop hfound
      exact .filter hfound argument tests reads
  | skip hfound argument tests => exact .skip hfound argument tests
  | select hfound first argument collected =>
      obtain rfl := hop hfound
      exact .select hfound first argument collected
  | orderBy hfound on argument =>
      obtain rfl := hop hfound
      exact .orderBy hfound on argument
  | thenBy hfound on argument =>
      obtain rfl := hop hfound
      exact .thenBy hfound on argument
  | orderByOff hfound off =>
      obtain rfl := hop hfound
      exact .orderByOff hfound off
  | thenByOff hfound off => exact .thenByOff hfound off

/-! ## Parts side by side -/

section

variable {part part' : QueryPart} {r : Progress}

theorem withPart_withPart_of_ne (h : part ≠ part') :
    p.withPart part (p.withPart part' r) = p := by
  cases part <;> cases part' <;> first | rfl | exact absurd rfl h

theorem withPart_self_of_ne (h : part ≠ part') :
    (p.withPart part' r).withPart part p = p.withPart part' r := by
  cases part <;> cases part' <;> first | rfl | exact absurd rfl h

theorem withPart_comm (h : part ≠ part') :
    (p.withPart part q).withPart part' r = (p.withPart part' r).withPart part q := by
  cases part <;> cases part' <;> first | rfl | exact absurd rfl h

end

/-- Two steps that add to different parts can change places. -/
theorem takes_swap (named : QueryOperator.ofMethod? s.method = some op)
    (named' : QueryOperator.ofMethod? t.method = some other) (hne : op.part ≠ other.part) :
    (∃ mid, Takes options rowType p s mid ∧ Takes options rowType mid t q) →
      ∃ mid, Takes options rowType p t mid ∧ Takes options rowType mid s q := by
  rintro ⟨mid, hs, ht⟩
  have hmid : mid = p.withPart op.part mid := hs.eq_withPart named
  have hq : q = mid.withPart other.part q := ht.eq_withPart named'
  refine ⟨p.withPart other.part q, ?_, ?_⟩
  · have hstep := ht.withPart named' p
    rwa [show p.withPart other.part mid = p by
      rw [hmid]
      exact withPart_withPart_of_ne hne.symm] at hstep
  · have hstep := hs.withPart named (p.withPart other.part q)
    rw [withPart_self_of_ne hne, withPart_comm hne.symm, ← hmid, ← hq] at hstep
    exact hstep

theorem takes_comm (named : QueryOperator.ofMethod? s.method = some op)
    (named' : QueryOperator.ofMethod? t.method = some other) (hne : op.part ≠ other.part) :
    (∃ mid, Takes options rowType p s mid ∧ Takes options rowType mid t q) ↔
      ∃ mid, Takes options rowType p t mid ∧ Takes options rowType mid s q :=
  ⟨takes_swap named named' hne, takes_swap named' named hne.symm⟩

/-! ## Runs of operators -/

/-- The progress after a run of operators. -/
def runOperators (options : Options) (rowType : TypeRef) (p : Progress)
    (ops : List (QueryOperator × Expr)) : Except CompileError Progress :=
  run options rowType p (ops.map Step.ofOperator)

variable {o o' : QueryOperator × Expr} {ops rest : List (QueryOperator × Expr)}

theorem ofMethod?_ofOperator (o : QueryOperator × Expr) :
    QueryOperator.ofMethod? (Step.ofOperator o).method = some o.1 :=
  QueryOperator.ofMethod?_method o.1

theorem runOperators_cons_eq_ok_iff :
    runOperators options rowType p (o :: ops) = .ok q ↔
      ∃ mid, Takes options rowType p (Step.ofOperator o) mid ∧
        runOperators options rowType mid ops = .ok q :=
  run_cons_eq_ok_iff

theorem runOperators_swap (hne : o.1.part ≠ o'.1.part) :
    runOperators options rowType p (o :: o' :: ops) = .ok q ↔
      runOperators options rowType p (o' :: o :: ops) = .ok q := by
  have named := ofMethod?_ofOperator o
  have named' := ofMethod?_ofOperator o'
  simp only [runOperators_cons_eq_ok_iff]
  constructor
  · rintro ⟨mid, htakes, last, htakes', hrun⟩
    obtain ⟨mid', h, h'⟩ := (takes_comm named named' hne).mp ⟨mid, htakes, htakes'⟩
    exact ⟨mid', h, last, h', hrun⟩
  · rintro ⟨mid, htakes, last, htakes', hrun⟩
    obtain ⟨mid', h, h'⟩ := (takes_comm named named' hne).mpr ⟨mid, htakes, htakes'⟩
    exact ⟨mid', h, last, h', hrun⟩

/-- An operator can wait until operators that add to other parts are done. -/
theorem runOperators_defer (hne : ∀ o' ∈ ops, o.1.part ≠ o'.1.part) : ∀ p : Progress,
    runOperators options rowType p (o :: (ops ++ rest)) = .ok q ↔
      runOperators options rowType p (ops ++ o :: rest) = .ok q := by
  induction ops with
  | nil =>
      intro p
      rfl
  | cons o' ops ih =>
      intro p
      have hrest := ih fun o'' h => hne o'' (List.mem_cons_of_mem o' h)
      rw [List.cons_append, runOperators_swap (hne o' List.mem_cons_self), List.cons_append,
        runOperators_cons_eq_ok_iff, runOperators_cons_eq_ok_iff]
      exact exists_congr fun mid => and_congr_right fun _ => hrest mid

/-! ## Operators sorted by part -/

/-- Is the operator a filter that is passed over, since its lambda does not return a truth value? -/
def isSkipped : QueryOperator × Expr → Bool
  | (.filter, .lambda _ returns _ _) => !returns.isBool
  | _ => false

/-- The operators that add to a part, without the filters that are passed over. -/
def ofPart (part : QueryPart) (ops : List (QueryOperator × Expr)) : List (QueryOperator × Expr) :=
  ops.filter fun o => o.1.part = part && !isSkipped o

/-- The operators of a chain, those of one part after those of another. -/
def sorted (ops : List (QueryOperator × Expr)) : List (QueryOperator × Expr) :=
  ofPart .condition ops ++ (ofPart .selection ops ++ ofPart .ordering ops)

theorem part_of_mem_ofPart {part : QueryPart} (h : o ∈ ofPart part ops) : o.1.part = part := by
  have htest := (List.mem_filter.mp h).2
  simp only [Bool.and_eq_true, decide_eq_true_eq] at htest
  exact htest.1

theorem step_of_isSkipped (h : isSkipped o = true) :
    Progress.step options rowType p (Step.ofOperator o) = .ok p := by
  obtain ⟨op, e⟩ := o
  unfold isSkipped at h
  split at h
  · rename_i heq
    obtain ⟨rfl, rfl⟩ := Prod.mk.inj heq
    exact step_eq_ok_iff.mpr (.skip rfl rfl (by simpa using h))
  · simp at h

/-- A filter that is passed over changes nothing. -/
theorem runOperators_of_isSkipped (h : isSkipped o = true) :
    runOperators options rowType p (o :: ops) = runOperators options rowType p ops := by
  simp only [runOperators, run, List.map_cons, List.foldlM_cons, step_of_isSkipped h]
  rfl

/-- In sorted order a new operator stands behind operators that add to other parts. -/
theorem exists_sorted_cons_eq (h : isSkipped o = false) (ops : List (QueryOperator × Expr)) :
    ∃ front back, sorted ops = front ++ back ∧ sorted (o :: ops) = front ++ o :: back ∧
      ∀ o' ∈ front, o.1.part ≠ o'.1.part := by
  cases hpart : o.1.part with
  | condition =>
      refine ⟨[], sorted ops, rfl, ?_, by simp⟩
      simp [sorted, ofPart, hpart, h]
  | selection =>
      refine ⟨ofPart .condition ops, ofPart .selection ops ++ ofPart .ordering ops, rfl, ?_, ?_⟩
      · simp [sorted, ofPart, hpart, h]
      · intro o' ho'
        rw [part_of_mem_ofPart ho']
        decide
  | ordering =>
      refine ⟨ofPart .condition ops ++ ofPart .selection ops, ofPart .ordering ops, ?_, ?_, ?_⟩
      · simp [sorted]
      · simp [sorted, ofPart, hpart, h]
      · intro o' ho'
        rcases List.mem_append.mp ho' with ho' | ho'
        · rw [part_of_mem_ofPart ho']
          decide
        · rw [part_of_mem_ofPart ho']
          decide

/-- A chain does what it does when its filters come first, then its projections and then its
orderings, without the filters that are passed over. -/
theorem runOperators_sorted (ops : List (QueryOperator × Expr)) : ∀ p : Progress,
    runOperators options rowType p ops = .ok q ↔
      runOperators options rowType p (sorted ops) = .ok q := by
  induction ops with
  | nil =>
      intro p
      rfl
  | cons o ops ih =>
      intro p
      cases hskip : isSkipped o with
      | true =>
          have hsorted : sorted (o :: ops) = sorted ops := by simp [sorted, ofPart, hskip]
          rw [runOperators_of_isSkipped hskip, hsorted]
          exact ih p
      | false =>
          obtain ⟨front, back, hsorted, hcons, hfront⟩ := exists_sorted_cons_eq hskip ops
          have hrest : runOperators options rowType p (o :: ops) = .ok q ↔
              runOperators options rowType p (o :: sorted ops) = .ok q := by
            rw [runOperators_cons_eq_ok_iff, runOperators_cons_eq_ok_iff]
            exact exists_congr fun mid => and_congr_right fun _ => ih mid
          -- The new operator waits until those of the parts in front of its own are done.
          rw [hrest, hsorted, hcons]
          exact runOperators_defer hfront p

/-! ## Chains -/

/-- A chain of operators over a dataset compiles to what a run of them has gathered. -/
theorem compile_applyAll_eq_ok_iff {d : Descriptor} {s : Statement} :
    compile options ((Expr.ofDescriptor d).applyAll ops) = .ok s ↔
      ∃ p, runOperators options d.element Progress.start ops = .ok p ∧ p.items d.element ≠ [] ∧
        s = ⟨d.dataset, p.items d.element, p.filters, p.order, p.projection.map (·.1)⟩ := by
  have hcompile : compile options ((Expr.ofDescriptor d).applyAll ops) =
      compileFor options ((Expr.ofDescriptor d).applyAll ops) d := by
    simp only [compile, Expr.root_applyAll]
    rfl
  rw [hcompile, compileFor_eq_ok_iff]
  constructor
  · rintro ⟨ss, p, hsteps, hrun, hitems, hs⟩
    rw [steps_applyAll] at hsteps
    obtain rfl := Except.ok.inj hsteps
    exact ⟨p, hrun, hitems, hs⟩
  · rintro ⟨p, hrun, hitems, hs⟩
    exact ⟨_, p, steps_applyAll d ops, hrun, hitems, hs⟩

/-- Two chains over a dataset that have the same filters, apart from those that are passed over, the
same projections and the same orderings, each in the same order, are both refused or compile to the
same statement, however their operators are interleaved. -/
theorem agree_compile_of_ofPart_eq {d : Descriptor} {ops ops' : List (QueryOperator × Expr)}
    (h : ∀ part, ofPart part ops = ofPart part ops') :
    Agree (fun s s' : Statement => s.sql = s'.sql ∧ s.params = s'.params ∧
        s.columns = s'.columns ∧ s.dataset = s'.dataset ∧ s.projection = s'.projection)
      (compile options ((Expr.ofDescriptor d).applyAll ops))
      (compile options ((Expr.ofDescriptor d).applyAll ops')) := by
  have hsorted : sorted ops = sorted ops' := by
    unfold sorted
    rw [h .condition, h .selection, h .ordering]
  have hequal : Agree (· = ·) (compile options ((Expr.ofDescriptor d).applyAll ops))
      (compile options ((Expr.ofDescriptor d).applyAll ops')) := by
    apply Agree.of_ok_iff
    intro s
    rw [compile_applyAll_eq_ok_iff, compile_applyAll_eq_ok_iff]
    refine exists_congr fun p => and_congr_left fun _ => ?_
    rw [runOperators_sorted ops, runOperators_sorted ops', hsorted]
  exact hequal.mono fun s s' heq => by simp [heq]

section

/-- A row of people. -/
def person : Expr := .param ⟨"x", peopleDescriptor.element⟩

/-- People with a high number. -/
def highId : QueryOperator × Expr :=
  (.filter, .predicateOver person (.binary .greaterThan (person.access "Id") (.const (.integer 7))))

/-- A filter with a text where a truth value belongs. -/
def untested : QueryOperator × Expr := (.filter, .functionOver person (person.access "Name"))

def onlyName : QueryOperator × Expr :=
  (.select, .functionOver person (.anonymous (.named "Shape") [("Name", person.access "Name")]))

def byName : QueryOperator × Expr := (.orderBy false, .functionOver person (person.access "Name"))

theorem agree_compile_of_ofPart_eq_people :
    (∀ part, ofPart part [highId, untested, onlyName, byName] =
        ofPart part [byName, onlyName, highId]) ∧
      ∃ s s', compile Options.default
          ((Expr.ofDescriptor peopleDescriptor).applyAll [highId, untested, onlyName, byName]) =
            .ok s ∧
        compile Options.default
          ((Expr.ofDescriptor peopleDescriptor).applyAll [byName, onlyName, highId]) = .ok s' ∧
        s.sql = s'.sql ∧
          s'.sql = "SELECT Name AS Name FROM people WHERE (Id >  ? ) ORDER BY Name" := by
  have hparts (part : QueryPart) : ofPart part [highId, untested, onlyName, byName] =
      ofPart part [byName, onlyName, highId] := by
    cases part <;> rfl
  have hagree := @agree_compile_of_ofPart_eq Options.default peopleDescriptor _ _ hparts
  refine ⟨hparts, _, _, rfl, rfl, ?_⟩
  cases hagree with
  | ok related => exact ⟨related.1, rfl⟩

end

end Query

end BoundSql
