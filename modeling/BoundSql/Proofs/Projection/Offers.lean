import BoundSql.Proofs.Projection.Recording

set_option autoImplicit false

/-!
# Offers of projections

The places of a projection are visited in order.  Each offers an item or nothing, or stops the
visit.  What a place offers does not depend on the places before it; whether the item is added does,
as a container is dropped if its public name is a label already.  Recording a projection adds what
is left of the offers before the first stop (`record_eq`, and `recordDynamic_eq` for containers).
-/

namespace BoundSql.Projection

/-! ## Offers -/

/-- An item that is offered. -/
structure Offer where
  /-- The public name of a container, which must not be a label yet; none for a field. -/
  name? : Option String
  item : Item

/-- The item that is added where these labels are taken. -/
def Offer.item? (taken : List String) (o : Offer) : Option Item :=
  if o.name?.any taken.contains then none else some o.item

/-- The items that are added of offers one after another, where some labels are taken already. -/
def gather (taken : List String) : List Offer → List Item
  | [] => []
  | o :: os =>
    match o.item? taken with
    | none => gather taken os
    | some item => item :: gather (taken ++ [item.label]) os

/-- The labels that are taken after offers one after another. -/
def labelsAfter (taken : List String) (os : List Offer) : List String :=
  taken ++ (gather taken os).map (·.label)

variable {taken taken' : List String} {o : Offer} {os os' : List Offer}

theorem Offer.item?_eq_none_iff : o.item? taken = none ↔ ∃ name ∈ taken, o.name? = some name := by
  unfold Offer.item?
  cases o.name? <;> simp

theorem gather_cons (taken : List String) (o : Offer) (os : List Offer) :
    gather taken (o :: os) =
      (o.item? taken).toList ++ gather (taken ++ (o.item? taken).toList.map (·.label)) os := by
  rw [gather]
  cases o.item? taken <;> simp

theorem gather_singleton (taken : List String) (o : Offer) :
    gather taken [o] = (o.item? taken).toList := by
  rw [gather_cons, gather, List.append_nil]

/-- The item of a container is added unless its public name is taken. -/
theorem gather_named (taken : List String) (name : String) (item : Item) :
    gather taken [⟨some name, item⟩] = if taken.contains name then [] else [item] := by
  rw [gather_singleton, Offer.item?]
  by_cases hname : name ∈ taken <;> simp [hname]

/-- What is added of later offers depends on the earlier ones through the labels alone. -/
theorem gather_append (taken : List String) (os os' : List Offer) :
    gather taken (os ++ os') = gather taken os ++ gather (labelsAfter taken os) os' := by
  induction os generalizing taken with
  | nil => simp [gather, labelsAfter]
  | cons o os ih =>
      rw [List.cons_append, gather_cons, ih, gather_cons taken o os, List.append_assoc]
      simp [labelsAfter, gather_cons taken o os]

theorem labelsAfter_append (taken : List String) (os os' : List Offer) :
    labelsAfter taken (os ++ os') = labelsAfter (labelsAfter taken os) os' := by
  simp [labelsAfter, gather_append]

theorem gather_eq_nil_iff : gather taken os = [] ↔ ∀ o ∈ os, o.item? taken = none := by
  induction os with
  | nil => simp [gather]
  | cons o os ih =>
      rw [gather_cons, List.append_eq_nil_iff, List.forall_mem_cons, ← ih]
      cases ho : o.item? taken <;> simp

/-- Only the labels that offers ask for matter. -/
theorem gather_congr (h : ∀ o ∈ os, ∀ name, o.name? = some name → (name ∈ taken ↔ name ∈ taken')) :
    gather taken os = gather taken' os := by
  induction os generalizing taken taken' with
  | nil => rfl
  | cons o os ih =>
      have hitem : o.item? taken = o.item? taken' := by
        have ho := h o List.mem_cons_self
        unfold Offer.item?
        cases hname : o.name? with
        | none => rfl
        | some name => simp [ho name hname]
      rw [gather_cons, gather_cons, hitem]
      refine congrArg _ (ih fun other hother name hname => ?_)
      rw [List.mem_append, List.mem_append, h other (List.mem_cons_of_mem o hother) name hname]

/-! ## Visits -/

/-- What a place of a projection gives: an item that it offers or nothing, or a stop. -/
abbrev Visit : Type := Except CompileError (Option Offer)

/-- The first stop. -/
def stop? : List Visit → Option CompileError
  | [] => none
  | .ok _ :: vs => stop? vs
  | .error e :: _ => some e

/-- What is offered before the first stop. -/
def offered : List Visit → List Offer
  | [] => []
  | .ok o? :: vs => o?.toList ++ offered vs
  | .error _ :: _ => []

namespace Collector

/-- The collector that makes one visit. -/
def ofVisit (v : Visit) : Collector :=
  ofResult v fun o? taken => ⟨gather taken o?.toList, none⟩

/-- The collector that makes visits one after another. -/
def ofVisits (vs : List Visit) : Collector := all (vs.map ofVisit)

theorem ofVisits_singleton (v : Visit) : ofVisits [v] = ofVisit v := andThen_done _

theorem ofVisits_append (vs ws : List Visit) :
    ofVisits (vs ++ ws) = (ofVisits vs).andThen (ofVisits ws) := by
  rw [ofVisits, List.map_append, all_append, ofVisits, ofVisits]

/-- Visits one after another add what is offered before the first stop. -/
theorem ofVisits_apply (vs : List Visit) (taken : List String) :
    ofVisits vs taken = ⟨gather taken (offered vs), stop? vs⟩ := by
  induction vs generalizing taken with
  | nil => rfl
  | cons v vs ih =>
      cases v with
      | error cause => rfl
      | ok o? =>
          have hrest := ih (labelsAfter taken o?.toList)
          simp only [ofVisits, labelsAfter] at hrest
          simp [ofVisits, all, andThen, ofVisit, ofResult, offered, stop?, gather_append,
            labelsAfter, hrest]

end Collector

/-- A field offers what it shows. -/
def fieldVisit (rowType : TypeRef) (label : String) (e : Expr) : Visit :=
  (fun shown => some ⟨none, ⟨label, shown⟩⟩) <$> source rowType e

/-- The column that a text names, if it is not blank. -/
def namedColumn? : Option Value → Option String
  | some (.text name) => if (Text.trim name.toList).isEmpty then none else some name
  | _ => none

/-- A plain member of a container offers the column that a text names. -/
def publicNameVisit (e : Expr) : Visit :=
  (fun value? => (namedColumn? value?).map fun name => ⟨some name, .identity name⟩) <$> e.resolve

/-- A container with a public name offers the item of its pair. -/
def pairVisit (options : Options) (bindings : List (MemberRef × Expr)) : Visit := do
  let name ← singleBinding bindings "Name"
  let value ← singleBinding bindings "Value"
  return (publicName? name).map fun name => ⟨some name, pairItem options name value⟩

/-- An expression offers something if it is a container. -/
def containerVisit (options : Options) : Expr → Visit
  | .record type bindings =>
    if options.isContainer type then pairVisit options bindings else .ok none
  | _ => .ok none

/-- The visits of all containers in a tree, the outermost first. -/
def containerVisits (options : Options) (e : Expr) : List Visit :=
  e.preorder.map (containerVisit options)

/-! ## Places -/

/-- A place of a projection. -/
inductive Place where
  /-- An argument of a constructor or a plain member of a record, with its label. -/
  | field (label : String) (e : Expr)
  /-- A plain member of a container. -/
  | publicName (e : Expr)
  /-- A part of a tree that is searched for containers. -/
  | part (e : Expr)
  /-- A constructor with another number of arguments than of parameters. -/
  | arity (type : TypeRef) (expected actual : Nat)

/-- What a place gives. -/
def Place.visit (options : Options) (rowType : TypeRef) : Place → Visit
  | .field label e => fieldVisit rowType label e
  | .publicName e => publicNameVisit e
  | .part e => containerVisit options e
  | .arity type expected actual => .error (.constructorArity type expected actual)

mutual

/-- The places of the body of a projection in visiting order. -/
def places (options : Options) : Expr → List Place
  | .const _ | .param _ | .staticMember _ => []
  | .member target _ => places options target
  | .binary _ left right => places options left ++ places options right
  | .call _ _ args => placesAll options args
  | .lambda _ _ body _ => places options body
  | .construct type paramNames args =>
    if args.isEmpty then []
    else if args.length = paramNames.length then
      (paramNames.zip args).map fun field => .field field.1 field.2
    else [.arity type paramNames.length args.length]
  | .record type bindings =>
    if options.isContainer type then (Expr.record type bindings).preorder.map .part
    else placesBindings options bindings
  | .cond test ifTrue ifFalse =>
    places options test ++ (places options ifTrue ++ places options ifFalse)
termination_by structural e => e

/-- The places of several expressions. -/
def placesAll (options : Options) : List Expr → List Place
  | [] => []
  | e :: es => places options e ++ placesAll options es
termination_by structural es => es

/-- The places of the members of a record. -/
def placesBindings (options : Options) : List (MemberRef × Expr) → List Place
  | [] => []
  | (ref, e) :: bindings =>
    (if !ref.type.isBasic true then places options e
      else if options.isContainer ref.declaring then [.publicName e]
      else [.field ref.name e]) ++ placesBindings options bindings
termination_by structural bs => bs

end

/-- The visits of the body of a projection. -/
def visits (options : Options) (rowType : TypeRef) (e : Expr) : List Visit :=
  (places options e).map (Place.visit options rowType)

/-! ## Visits and collectors -/

variable {options : Options} {rowType : TypeRef}

theorem collectField_eq (label : String) (e : Expr) :
    collectField rowType label e = Collector.ofVisit (fieldVisit rowType label e) := by
  unfold collectField fieldVisit Collector.ofVisit
  cases source rowType e <;> rfl

theorem collectPublicName_eq (e : Expr) :
    collectPublicName e = Collector.ofVisit (publicNameVisit e) := by
  unfold collectPublicName publicNameVisit Collector.ofVisit
  cases e.resolve with
  | error cause => rfl
  | ok value? =>
      funext taken
      simp only [Collector.ofResult, Functor.map, Except.map]
      cases value? with
      | none => rfl
      | some value =>
          cases value with
          | text name =>
              cases hblank : (Text.trim name.toList).isEmpty with
              | true => simp [namedColumn?, hblank, Collector.done, gather]
              | false => simp [namedColumn?, hblank, Collector.newItem, gather_named, Item.identity]
          | _ => rfl

theorem collectPair_eq (bindings : List (MemberRef × Expr)) :
    collectPair options bindings = Collector.ofVisit (pairVisit options bindings) := by
  unfold collectPair pairVisit
  cases singleBinding bindings "Name" with
  | error cause => rfl
  | ok named =>
      cases singleBinding bindings "Value" with
      | error cause => rfl
      | ok value =>
          funext taken
          simp only [Collector.ofVisit, Collector.ofResult, bind, Except.bind, pure, Except.pure]
          cases publicName? named with
          | none => rfl
          | some name => simp [gather_named]

theorem collectContainer_eq (e : Expr) :
    collectContainer options e = Collector.ofVisit (containerVisit options e) := by
  cases e with
  | record type bindings =>
      simp only [collectContainer, containerVisit]
      split
      · exact collectPair_eq bindings
      · rfl
  | _ => rfl

theorem collectDynamic_eq (e : Expr) :
    collectDynamic options e = Collector.ofVisits (containerVisits options e) := by
  rw [collectDynamic, Collector.ofVisits, containerVisits, List.map_map]
  exact congrArg Collector.all (List.map_congr_left fun part _ => collectContainer_eq part)

/-- The collector that visits places one after another. -/
def Collector.ofPlaces (options : Options) (rowType : TypeRef) (ps : List Place) : Collector :=
  ofVisits (ps.map (Place.visit options rowType))

theorem Collector.ofPlaces_append (ps qs : List Place) :
    Collector.ofPlaces options rowType (ps ++ qs) =
      (Collector.ofPlaces options rowType ps).andThen (Collector.ofPlaces options rowType qs) := by
  rw [Collector.ofPlaces, List.map_append, Collector.ofVisits_append]
  rfl

theorem Collector.ofPlaces_singleton (place : Place) :
    Collector.ofPlaces options rowType [place] =
      Collector.ofVisit (place.visit options rowType) :=
  Collector.ofVisits_singleton _

mutual

/-- The items of the body of a projection are those of its places. -/
theorem collect_places : ∀ e : Expr,
    collect options rowType e = Collector.ofPlaces options rowType (places options e)
  | .const _ | .param _ | .staticMember _ => rfl
  | .member target _ => collect_places target
  | .binary _ left right => by
      rw [collect, places, Collector.ofPlaces_append, collect_places left, collect_places right]
  | .call _ _ args => collectAll_places args
  | .lambda _ _ body _ => collect_places body
  | .construct type paramNames args => by
      rw [collect, places]
      split
      · rfl
      · split
        · rw [Collector.ofPlaces, Collector.ofVisits, List.map_map, List.map_map]
          exact congrArg Collector.all
            (List.map_congr_left fun field _ => collectField_eq field.1 field.2)
        · exact (Collector.ofPlaces_singleton (.arity _ _ _)).symm
  | .record type bindings => by
      rw [collect, places]
      split
      · rw [collectDynamic_eq, Collector.ofPlaces, List.map_map]
        rfl
      · exact collectBindings_places bindings
  | .cond test ifTrue ifFalse => by
      rw [collect, places, Collector.ofPlaces_append, Collector.ofPlaces_append, collect_places test,
        collect_places ifTrue, collect_places ifFalse]
termination_by structural e => e

theorem collectAll_places : ∀ es : List Expr,
    collectAll options rowType es = Collector.ofPlaces options rowType (placesAll options es)
  | [] => rfl
  | e :: es => by
      rw [collectAll, placesAll, Collector.ofPlaces_append, collect_places e, collectAll_places es]
termination_by structural es => es

theorem collectBindings_places : ∀ bindings : List (MemberRef × Expr),
    collectBindings options rowType bindings =
      Collector.ofPlaces options rowType (placesBindings options bindings)
  | [] => rfl
  | (ref, e) :: bindings => by
      rw [collectBindings, placesBindings, Collector.ofPlaces_append, collectBindings_places bindings]
      congr 1
      split
      · exact collect_places e
      · split
        · rw [Collector.ofPlaces_singleton, collectPublicName_eq]
          rfl
        · rw [Collector.ofPlaces_singleton, collectField_eq]
          rfl
termination_by structural bindings => bindings

end

/-- The items of the body of a projection are those of its visits. -/
theorem collect_eq (e : Expr) :
    collect options rowType e = Collector.ofVisits (visits options rowType e) :=
  collect_places e

/-! ## Visits and recordings -/

theorem run_ofVisits {recording : Recording} {vs : List Visit}
    (h : Records recording (Collector.ofVisits vs)) (g : Gathered) :
    recording g = (⟨gather g.labels (offered vs), stop? vs⟩ : Collected).addTo g := by
  rw [h g, Collector.ofVisits_apply]

/-- The body of a projection is recorded up to the first stop. -/
theorem record_eq (e : Expr) (g : Gathered) :
    record options rowType e g =
      (⟨gather g.labels (offered (visits options rowType e)), stop? (visits options rowType e)⟩ :
        Collected).addTo g :=
  run_ofVisits (collect_eq e ▸ records_record e) g

/-- Containers are recorded up to the first stop. -/
theorem recordDynamic_eq (e : Expr) (g : Gathered) :
    recordDynamic options e g =
      (⟨gather g.labels (offered (containerVisits options e)), stop? (containerVisits options e)⟩ :
        Collected).addTo g :=
  run_ofVisits (collectDynamic_eq e ▸ Records.all fun part _ => records_recordContainer part) g

end BoundSql.Projection
