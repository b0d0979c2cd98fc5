import BoundSql.Expr.Build
import BoundSql.Proofs.Projection.Offers
import BoundSql.Proofs.Projection.Renaming
import Mathlib.Data.List.Nodup

set_option autoImplicit false

/-!
# Labels of dynamic containers

A container is dropped if its public name is a label already, but it is added under a label of its
own: the name of the member that its value is, or the path to which its value falls back.  So labels
stay distinct only as far as these labels are new (`nodup_labels_of_recordDynamic`), and the second
of two containers with one public name is dropped only if the name has become a label by then
(`later_dropped_iff_of_recordDynamic`).
-/

namespace BoundSql.Projection

/-! ## Labels of offers -/

section

variable {taken : List String} {name : String} {item : Item}

theorem labelsAfter_nil (taken : List String) : labelsAfter taken [] = taken := by
  simp [labelsAfter, gather]

theorem labelsAfter_named (taken : List String) (name : String) (item : Item) :
    labelsAfter taken [⟨some name, item⟩] =
      if taken.contains name then taken else taken ++ [item.label] := by
  rw [labelsAfter, gather_named]
  split <;> simp

/-- A container keeps the labels distinct unless it is added under a label that is taken. -/
theorem nodup_labelsAfter_named_iff :
    (labelsAfter taken [⟨some name, item⟩]).Nodup ↔
      taken.Nodup ∧ (name ∉ taken → item.label ∉ taken) := by
  rw [labelsAfter_named]
  by_cases hname : name ∈ taken
  · simp [hname]
  · have hconcat : (taken ++ [item.label]).Nodup ↔ item.label ∉ taken ∧ taken.Nodup := by
      rw [← List.concat_eq_append]
      exact List.nodup_concat taken item.label
    simp [hname, hconcat, and_comm]

/-- Behind a container its public name is a label if it was one before or the container has it. -/
theorem mem_labelsAfter_named_iff :
    name ∈ labelsAfter taken [⟨some name, item⟩] ↔ name ∈ taken ∨ item.label = name := by
  rw [labelsAfter_named]
  by_cases hname : name ∈ taken
  · simp [hname]
  · simp [hname, eq_comm]

end

/-! ## Containers -/

/-- The expression is a container that pairs a public name with a value. -/
inductive Pairs (options : Options) : Expr → String → Expr → Prop where
  | intro {type : TypeRef} {bindings : List (MemberRef × Expr)} {named value : Expr} {name : String}
      (container : options.isContainer type = true)
      (nameBound : singleBinding bindings "Name" = .ok named)
      (valueBound : singleBinding bindings "Value" = .ok value)
      (labelled : publicName? named = some name) : Pairs options (.record type bindings) name value

theorem Pairs.unique {options : Options} {part : Expr} {name name' : String} {value value' : Expr}
    (h : Pairs options part name value) (h' : Pairs options part name' value') :
    name = name' ∧ value = value' := by
  obtain ⟨-, nameBound, valueBound, labelled⟩ := h
  obtain ⟨-, nameBound', valueBound', labelled'⟩ := h'
  obtain rfl := Except.ok.inj (nameBound.symm.trans nameBound')
  obtain rfl := Except.ok.inj (valueBound.symm.trans valueBound')
  exact ⟨Option.some.inj (labelled.symm.trans labelled'), rfl⟩

/-- The value of a container is shown under its public name: it is a member of that name, or a
conditional that falls back to a path that is rendered like it, or anything else. -/
structure KeepsName (options : Options) (name : String) (value : Expr) : Prop where
  member : ∀ ref, value.asMember? = some ref → ref.name = name
  fallback : ∀ m, conditionalMember? value = some m →
    Text.replaceDots options.dotSeparator (renderedPath m) = name

variable {options : Options} {e part : Expr} {name : String} {value : Expr} {o : Offer}

theorem label_pairItem_eq_iff :
    (pairItem options name value).label = name ↔ KeepsName options name value := by
  rw [pairItem_eq]
  cases hfallback : conditionalMember? value with
  | some m =>
      have hmember : value.asMember? = none := by
        cases value <;> simp_all [conditionalMember?, Expr.asMember?]
      simp only [Option.map_some]
      exact ⟨fun h => ⟨by simp [hmember], by simpa [hfallback] using h⟩,
        fun h => h.fallback m hfallback⟩
  | none =>
      simp only [Option.map_none, Item.identity]
      cases hmember : value.asMember? with
      | some ref =>
          exact ⟨fun h => ⟨by simpa [hmember] using h, by simp [hfallback]⟩,
            fun h => h.member ref hmember⟩
      | none => exact ⟨fun _ => ⟨by simp [hmember], by simp [hfallback]⟩, fun _ => rfl⟩

/-- What an expression offers if it is a container. -/
def containerOffer? (options : Options) (part : Expr) : Option Offer :=
  (containerVisit options part).toOption.join

theorem containerOffer?_of_pairs (h : Pairs options part name value) :
    containerOffer? options part = some ⟨some name, pairItem options name value⟩ := by
  obtain ⟨container, nameBound, valueBound, labelled⟩ := h
  simp [containerOffer?, containerVisit, container, pairVisit, nameBound, valueBound, labelled,
    bind, Except.bind, pure, Except.pure, Except.toOption]

theorem exists_pairs_of_containerOffer? (h : containerOffer? options part = some o) :
    ∃ name value, Pairs options part name value ∧ o = ⟨some name, pairItem options name value⟩ := by
  cases part with
  | record type bindings =>
      simp only [containerOffer?, containerVisit] at h
      cases container : options.isContainer type with
      | false => simp [container, Except.toOption] at h
      | true =>
          simp only [container, if_true, pairVisit] at h
          cases nameBound : singleBinding bindings "Name" with
          | error cause => simp [nameBound, bind, Except.bind, Except.toOption] at h
          | ok named =>
              cases valueBound : singleBinding bindings "Value" with
              | error cause =>
                  simp [nameBound, valueBound, bind, Except.bind, Except.toOption] at h
              | ok value =>
                  simp only [nameBound, valueBound, bind, Except.bind, pure, Except.pure,
                    Except.toOption, Option.join_some] at h
                  obtain ⟨name, labelled, rfl⟩ := Option.map_eq_some_iff.mp h
                  exact ⟨name, value, .intro container nameBound valueBound labelled, rfl⟩
  | _ => simp [containerOffer?, containerVisit, Except.toOption] at h

/-- What the containers among expressions offer. -/
def containerOffers (options : Options) (parts : List Expr) : List Offer :=
  parts.filterMap (containerOffer? options)

theorem containerOffers_append (parts others : List Expr) :
    containerOffers options (parts ++ others) =
      containerOffers options parts ++ containerOffers options others :=
  List.filterMap_append

theorem gather_containerOffers_append (taken : List String) (parts others : List Expr) :
    gather taken (containerOffers options (parts ++ others)) =
      gather taken (containerOffers options parts) ++
        gather (labelsAfter taken (containerOffers options parts))
          (containerOffers options others) := by
  rw [containerOffers_append, gather_append]

theorem labelsAfter_containerOffers_append (taken : List String) (parts others : List Expr) :
    labelsAfter taken (containerOffers options (parts ++ others)) =
      labelsAfter (labelsAfter taken (containerOffers options parts))
        (containerOffers options others) := by
  rw [containerOffers_append, labelsAfter_append]

theorem containerOffers_of_pairs (h : Pairs options part name value) :
    containerOffers options [part] = [⟨some name, pairItem options name value⟩] :=
  List.filterMap_cons_some (containerOffer?_of_pairs h)

theorem offered_of_stop?_eq_none {vs : List Visit} (h : stop? vs = none) :
    offered vs = vs.filterMap fun v => v.toOption.join := by
  induction vs with
  | nil => rfl
  | cons v vs ih =>
      cases v with
      | error cause => simp [stop?] at h
      | ok o? =>
          rw [offered, ih h]
          cases o? <;> rfl

/-- Visits of containers that do not stop offer what the containers offer. -/
theorem offered_containerVisits (h : stop? (containerVisits options e) = none) :
    offered (containerVisits options e) = containerOffers options e.preorder := by
  rw [offered_of_stop?_eq_none h, containerVisits, List.filterMap_map]
  rfl

/-- Containers that are recorded to their end add what they offer, the outermost first. -/
theorem eq_extend_of_recordDynamic {g g' : Gathered} (h : recordDynamic options e g = .ok () g') :
    g' = g.extend (gather g.labels (containerOffers options e.preorder)) := by
  rw [recordDynamic_eq, Collected.addTo] at h
  cases hstop : stop? (containerVisits options e) with
  | some cause => simp [hstop] at h
  | none =>
      simp only [hstop, offered_containerVisits hstop] at h
      exact (EStateM.Result.ok.inj h).2.symm

/-- Containers that are collected to their end give what is left of their offers. -/
theorem items_of_collectDynamic {taken : List String} {items : List Item}
    (h : collectDynamic options e taken = ⟨items, none⟩) :
    items = gather taken (containerOffers options e.preorder) := by
  rw [collectDynamic_eq, Collector.ofVisits_apply] at h
  obtain ⟨hitems, hstop⟩ := Collected.mk.inj h
  rw [← hitems, offered_containerVisits hstop]

/-! ## Distinct labels -/

/-- If the container is added where these labels are taken, then under a label that is not. -/
def BringsNew (options : Options) (taken : List String) (part : Expr) : Prop :=
  ∀ name value, Pairs options part name value → name ∉ taken →
    (pairItem options name value).label ∉ taken

theorem bringsNew_iff {taken : List String} (h : Pairs options part name value) :
    BringsNew options taken part ↔
      (name ∉ taken → (pairItem options name value).label ∉ taken) := by
  constructor
  · intro hnew
    exact hnew name value h
  · intro hnew name' value' h'
    obtain ⟨rfl, rfl⟩ := h.unique h'
    exact hnew

theorem nodup_labelsAfter_singleton_iff {taken : List String} :
    (labelsAfter taken (containerOffers options [part])).Nodup ↔
      taken.Nodup ∧ BringsNew options taken part := by
  cases hoffer : containerOffer? options part with
  | none =>
      have hnone : BringsNew options taken part := by
        intro name value hpairs
        simp [containerOffer?_of_pairs hpairs] at hoffer
      rw [containerOffers, List.filterMap_cons_none hoffer, List.filterMap_nil, labelsAfter_nil]
      exact (and_iff_left hnone).symm
  | some o =>
      obtain ⟨name, value, hpairs, rfl⟩ := exists_pairs_of_containerOffer? hoffer
      rw [containerOffers_of_pairs hpairs, bringsNew_iff hpairs]
      exact nodup_labelsAfter_named_iff

/-- What holds of everything in a list and what stands before it holds of the first and nothing, and
of the others with the first before them. -/
theorem forall_split_cons {α : Type} {P : List α → α → Prop} {x : α} {xs : List α} :
    (∀ before y after, x :: xs = before ++ y :: after → P before y) ↔
      P [] x ∧ ∀ before y after, xs = before ++ y :: after → P (x :: before) y := by
  constructor
  · intro h
    refine ⟨h [] x xs rfl, fun before y after hsplit => h (x :: before) y after ?_⟩
    rw [hsplit, List.cons_append]
  · rintro ⟨hfirst, hrest⟩ (_ | ⟨first, before⟩) y after hsplit
    · obtain ⟨rfl, -⟩ := List.cons.inj hsplit
      exact hfirst
    · obtain ⟨rfl, hxs⟩ := List.cons.inj hsplit
      exact hrest before y after hxs

/-- Containers keep the labels distinct exactly if each brings a new one when its turn comes. -/
theorem nodup_labelsAfter_iff {taken : List String} {parts : List Expr} :
    (labelsAfter taken (containerOffers options parts)).Nodup ↔
      taken.Nodup ∧ ∀ before part after, parts = before ++ part :: after →
        BringsNew options (labelsAfter taken (containerOffers options before)) part := by
  induction parts generalizing taken with
  | nil => simp [containerOffers, labelsAfter_nil]
  | cons part parts ih =>
      have hnil : labelsAfter taken (containerOffers options []) = taken := labelsAfter_nil taken
      have hcons (parts : List Expr) : labelsAfter taken (containerOffers options (part :: parts)) =
          labelsAfter (labelsAfter taken (containerOffers options [part]))
            (containerOffers options parts) :=
        labelsAfter_containerOffers_append taken [part] parts
      rw [hcons, ih, nodup_labelsAfter_singleton_iff, forall_split_cons, and_assoc, hnil]
      simp only [← hcons]

variable {g g' : Gathered}

/-- The labels of lists are distinct, and the containers in a tree are recorded to their end.

* The labels are still distinct exactly if every container whose public name is no label when its
  turn comes is added under a label that is none either.
* That is so if each container shows its value under its public name. -/
theorem nodup_labels_of_recordDynamic (h : recordDynamic options e g = .ok () g')
    (distinct : g.labels.Nodup) :
    (g'.labels.Nodup ↔
      ∀ before part after, e.preorder = before ++ part :: after →
        BringsNew options (labelsAfter g.labels (containerOffers options before)) part) ∧
    ((∀ part ∈ e.preorder, ∀ name value, Pairs options part name value →
        KeepsName options name value) → g'.labels.Nodup) := by
  have hlabels : g'.labels = labelsAfter g.labels (containerOffers options e.preorder) := by
    rw [eq_extend_of_recordDynamic h, Gathered.labels_extend, labelsAfter]
  rw [hlabels, nodup_labelsAfter_iff, and_iff_right distinct]
  refine ⟨.rfl, fun hkeeps before part after hsplit name value hpairs hfree => ?_⟩
  have hmem : part ∈ e.preorder := hsplit ▸ List.mem_append_right before List.mem_cons_self
  rwa [label_pairItem_eq_iff.mpr (hkeeps part hmem name value hpairs)]

section

/-- A row with a number and a name. -/
def namedRow : Expr :=
  .param ⟨"$it", .record "Person" [("Id", .scalar .int), ("Name", .scalar .string)] []⟩

/-- A container that shows a member of the row, with further members of its own. -/
def memberPair (type : TypeRef) (name member : String) (rest : List (MemberRef × Expr)) : Expr :=
  .record type
    ((.of type "Name", .const (.text name)) :: (.of type "Value", namedRow.access member) :: rest)

/-- Two containers, one inside the other, that show members of the row. -/
def twoPairs (name member name' member' : String) : Expr :=
  let outer : TypeRef := .named "NamedPropertyWithNext"
  memberPair outer name member
    [(.of outer "Next", memberPair (.named "NamedProperty") name' member' [])]

def nestingOptions : Options :=
  Options.default.withContainersNamed ["NamedProperty", "NamedPropertyWithNext"]

theorem preorder_twoPairs (name member name' member' : String) :
    (twoPairs name member name' member').preorder =
      twoPairs name member name' member' ::
        ([.const (.text name), namedRow.access member, namedRow] ++
          memberPair (.named "NamedProperty") name' member' [] ::
            [.const (.text name'), namedRow.access member', namedRow]) := rfl

theorem outer_pairs (name member name' member' : String) :
    Pairs nestingOptions (twoPairs name member name' member') name (namedRow.access member) :=
  .intro rfl rfl rfl rfl

theorem inner_pairs (name member : String) :
    Pairs nestingOptions (memberPair (.named "NamedProperty") name member []) name
      (namedRow.access member) :=
  .intro rfl rfl rfl rfl

/-- Two names for one member give its label twice. -/
theorem nodup_labels_of_recordDynamic_sameMember :
    ∃ g', recordDynamic nestingOptions (twoPairs "a" "Name" "b" "Name") ⟨[], []⟩ = .ok () g' ∧
      g'.columns = [.identity "Name", .identity "Name"] ∧ ¬g'.labels.Nodup := by
  let g' : Gathered := ⟨[.identity "Name", .identity "Name"], []⟩
  have h : recordDynamic nestingOptions (twoPairs "a" "Name" "b" "Name") ⟨[], []⟩ = .ok () g' := rfl
  refine ⟨g', h, rfl, fun hdistinct => ?_⟩
  have hbrings := (nodup_labels_of_recordDynamic h List.nodup_nil).1.mp hdistinct
    (_ :: [_, _, _]) _ _ (preorder_twoPairs "a" "Name" "b" "Name")
  have hnew := hbrings "b" _ (inner_pairs "b" "Name")
  revert hnew
  decide

end

/-! ## Public names that occur twice -/

/-- Behind a container its public name is a label if it was one before, or the container shows its
value under it, or an item that was added later has it. -/
theorem mem_labelsAfter_pairs_iff {taken : List String} {before between : List Expr}
    (h : Pairs options part name value) :
    name ∈ labelsAfter taken (containerOffers options (before ++ part :: between)) ↔
      name ∈ labelsAfter taken (containerOffers options before) ∨
      KeepsName options name value ∨
      ∃ item ∈ gather (labelsAfter taken (containerOffers options (before ++ [part])))
          (containerOffers options between), item.label = name := by
  have hpart : name ∈ labelsAfter taken (containerOffers options (before ++ [part])) ↔
      name ∈ labelsAfter taken (containerOffers options before) ∨
        KeepsName options name value := by
    rw [labelsAfter_containerOffers_append, containerOffers_of_pairs h]
    exact mem_labelsAfter_named_iff.trans (or_congr_right label_pairItem_eq_iff)
  have hsplit : before ++ part :: between = (before ++ [part]) ++ between := by simp
  rw [hsplit, labelsAfter_containerOffers_append, labelsAfter, List.mem_append, List.mem_map, hpart,
    or_assoc]

/-- Among the containers in a tree, which are recorded to their end, two have the same public name.
The later one adds nothing or its item, between what the containers before and behind it add.  It
adds nothing exactly if the name

* was a label before the earlier one,
* or is the label under which the earlier one shows its value,
* or is the label of an item that was added between them. -/
theorem later_dropped_iff_of_recordDynamic (h : recordDynamic options e g = .ok () g')
    {before between after : List Expr} {first later value later' : Expr}
    (split : e.preorder = before ++ first :: (between ++ later :: after))
    (hfirst : Pairs options first name value) (hlater : Pairs options later name later') :
    ∃ added, (added = [] ∨ added = [pairItem options name later']) ∧
      g' = g.extend
        (gather g.labels (containerOffers options (before ++ first :: between)) ++
          (added ++ gather (labelsAfter g.labels
            (containerOffers options (before ++ first :: (between ++ [later]))))
              (containerOffers options after))) ∧
      (added = [] ↔
        name ∈ labelsAfter g.labels (containerOffers options before) ∨
        KeepsName options name value ∨
        ∃ item ∈ gather (labelsAfter g.labels (containerOffers options (before ++ [first])))
            (containerOffers options between), item.label = name) := by
  have hadded (taken : List String) : gather taken (containerOffers options [later]) =
      if name ∈ taken then [] else [pairItem options name later'] := by
    rw [containerOffers_of_pairs hlater]
    simpa using gather_named taken name (pairItem options name later')
  have hgather : gather g.labels (containerOffers options e.preorder) =
      gather g.labels (containerOffers options (before ++ first :: between)) ++
        (gather (labelsAfter g.labels (containerOffers options (before ++ first :: between)))
            (containerOffers options [later]) ++
          gather (labelsAfter g.labels
            (containerOffers options (before ++ first :: (between ++ [later]))))
              (containerOffers options after)) := by
    have hparts : e.preorder = (before ++ first :: between) ++ ([later] ++ after) := by simp [split]
    have hfront : before ++ first :: (between ++ [later]) =
        (before ++ first :: between) ++ [later] := by simp
    rw [hparts, hfront, gather_containerOffers_append g.labels (before ++ first :: between),
      gather_containerOffers_append _ [later], ← labelsAfter_containerOffers_append]
  refine ⟨_, ?_, (eq_extend_of_recordDynamic h).trans (congrArg g.extend hgather), ?_⟩
  · rw [hadded]
    split
    · exact .inl rfl
    · exact .inr rfl
  · rw [hadded, ← mem_labelsAfter_pairs_iff hfirst]
    constructor
    · intro hnil
      by_contra hfree
      simp [hfree] at hnil
    · intro hname
      exact if_pos hname

/-- Two members under one name are both added, as the first is not shown under it. -/
theorem later_dropped_iff_of_recordDynamic_sameName :
    ∃ g' added, recordDynamic nestingOptions (twoPairs "a" "Name" "a" "Id") ⟨[], []⟩ = .ok () g' ∧
      g'.columns = [.identity "Name", .identity "Id"] ∧ added = [Item.identity "Id"] ∧
      g' = Gathered.extend ⟨[], []⟩ (.identity "Name" :: added) := by
  let g' : Gathered := ⟨[.identity "Name", .identity "Id"], []⟩
  have h : recordDynamic nestingOptions (twoPairs "a" "Name" "a" "Id") ⟨[], []⟩ = .ok () g' := rfl
  have hsplit : (twoPairs "a" "Name" "a" "Id").preorder = [] ++ _ :=
    preorder_twoPairs "a" "Name" "a" "Id"
  obtain ⟨added, hadded, -, hdropped⟩ := later_dropped_iff_of_recordDynamic h hsplit
    (outer_pairs "a" "Name" "a" "Id") (inner_pairs "a" "Id")
  have hkept : added ≠ [] := by
    intro hnil
    rcases hdropped.mp hnil with htaken | hkeeps | ⟨item, hitem, -⟩
    · cases htaken
    · exact absurd (hkeeps.member _ rfl) (by decide)
    · cases hitem
  obtain rfl := hadded.resolve_left hkept
  exact ⟨g', _, h, rfl, rfl, rfl⟩

end BoundSql.Projection
