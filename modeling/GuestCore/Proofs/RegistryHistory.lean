import GuestCore.Proofs.Canonical

/-!
# Functions Follow Their History

The function of a name is determined by the requests for that name.  It is defined if the name was
registered, with the definition that came last, and its generation counts the registrations, the
first one excepted if it brought the name into existence.  Neither the requests for other names
nor calls, however they nest, have a part in it.
-/

namespace GuestCore

/-! ## Registrations in a journal -/

namespace Effect

variable {registry : RegistryId} {name : String}

/-- The definitions that a name was given, oldest first. -/
def registrations (registry : RegistryId) (name : String) (journal : List Effect) :
    List Definition :=
  journal.filterMap (definition? registry name)

/-- Whether the first request that brought the name into existence was a registration. -/
def bornDefined (registry : RegistryId) (name : String) (journal : List Effect) : Bool :=
  (journal.find? fun effect ↦ effect.mentioned? registry = some name).any fun effect ↦
    (effect.definition? registry name).isSome

theorem mentioned?_of_definition? {effect : Effect} {definition : Definition}
    (hdefinition : effect.definition? registry name = some definition) :
    effect.mentioned? registry = some name := by
  cases effect with
  | register otherRegistry otherName otherDefinition =>
    simp only [definition?] at hdefinition
    split at hdefinition
    · next hsame => simp [mentioned?, hsame]
    · cases hdefinition
  | _ => cases hdefinition

theorem registrations_append (journal : List Effect) (effect : Effect) :
    registrations registry name (journal ++ [effect]) =
      registrations registry name journal ++ (effect.definition? registry name).toList := by
  rw [registrations, List.filterMap_append]
  cases hdefinition : effect.definition? registry name with
  | none => simp [registrations, hdefinition]
  | some definition => simp [registrations, hdefinition]

/-- A name that was never asked for was never registered. -/
theorem registrations_eq_nil {journal : List Effect}
    (hnew : ¬ ∃ effect ∈ journal, effect.mentioned? registry = some name) :
    registrations registry name journal = [] := by
  rw [registrations, List.filterMap_eq_nil_iff]
  intro effect hmem
  cases hdefinition : effect.definition? registry name with
  | none => rfl
  | some definition => exact absurd ⟨effect, hmem, mentioned?_of_definition? hdefinition⟩ hnew

theorem bornDefined_append_of_mentioned {journal : List Effect}
    (hmentioned : ∃ effect ∈ journal, effect.mentioned? registry = some name)
    (more : List Effect) :
    bornDefined registry name (journal ++ more) = bornDefined registry name journal := by
  have hfound : (journal.find? fun effect ↦ effect.mentioned? registry = some name).isSome := by
    simpa [List.find?_isSome] using hmentioned
  rw [bornDefined, List.find?_append, Option.or_of_isSome hfound]
  rfl

theorem bornDefined_append_of_new {journal : List Effect} {effect : Effect}
    (hnew : ¬ ∃ effect ∈ journal, effect.mentioned? registry = some name)
    (heffect : effect.mentioned? registry = some name) :
    bornDefined registry name (journal ++ [effect]) =
      (effect.definition? registry name).isSome := by
  have hnone : (journal.find? fun effect ↦ effect.mentioned? registry = some name) = none := by
    simpa [List.find?_eq_none] using hnew
  rw [bornDefined, List.find?_append, hnone, Option.none_or]
  simp [heffect]

end Effect

/-! ## States of functions -/

/-- The state is the one that follows from the registrations of its name, given whether the name
was defined from the beginning. -/
structure FunctionState.Follows (state : FunctionState) (registrations : List Definition)
    (bornDefined : Bool) : Prop where
  definition : state.definition = registrations.getLast?
  generation : state.generation + bornDefined.toNat = registrations.length
  published : state.published = state.generation

namespace FunctionState.Follows

variable {state : FunctionState} {registrations : List Definition} {bornDefined : Bool}

theorem new (name : String) (definition : Option Definition) :
    FunctionState.Follows { name, definition } definition.toList definition.isSome := by
  cases definition with
  | none => exact ⟨rfl, rfl, rfl⟩
  | some definition => exact ⟨rfl, rfl, rfl⟩

theorem redefine (hfollows : state.Follows registrations bornDefined) (definition : Definition) :
    (state.redefine definition).Follows (registrations ++ [definition]) bornDefined where
  definition := by
    rw [List.getLast?_concat]
    rfl
  generation := by
    have hgeneration := hfollows.generation
    rw [List.length_append, List.length_singleton]
    change state.generation + 1 + bornDefined.toNat = registrations.length + 1
    omega
  published := rfl

end FunctionState.Follows

namespace Moment

variable {earlier moment later : Moment}

/-- The function of every name is in the state that follows from the journal. -/
def FollowsHistory (moment : Moment) : Prop :=
  ∀ (registry : RegistryId) (name : String) (function : FunctionId),
    moment.world.functionNamed? registry name = some function →
      (moment.world.functionState function).Follows
        (Effect.registrations registry name moment.journal)
        (Effect.bornDefined registry name moment.journal)

theorem Reachable.mentioned (hreachable : moment.Reachable) {registry : RegistryId}
    {name : String} {function : FunctionId}
    (hname : moment.world.functionNamed? registry name = some function) :
    ∃ effect ∈ moment.journal, effect.mentioned? registry = some name := by
  refine (hreachable.isSome_functionNamed? registry name).mp ?_
  rw [hname]
  rfl

theorem Reachable.not_mentioned (hreachable : moment.Reachable) {registry : RegistryId}
    {name : String} (hname : moment.world.functionNamed? registry name = none) :
    ¬ ∃ effect ∈ moment.journal, effect.mentioned? registry = some name := by
  rw [← hreachable.isSome_functionNamed?, hname]
  simp

/-- An effect that does not register the name leaves its history as it is. -/
theorem FollowsHistory.keep (hfollows : moment.FollowsHistory) (hreachable : moment.Reachable)
    {registry : RegistryId} {name : String} {function : FunctionId} {effect : Effect}
    {state : FunctionState} (hname : moment.world.functionNamed? registry name = some function)
    (hstate : state = moment.world.functionState function)
    (hdefinition : effect.definition? registry name = none) :
    state.Follows (Effect.registrations registry name (moment.journal ++ [effect]))
      (Effect.bornDefined registry name (moment.journal ++ [effect])) := by
  rw [Effect.registrations_append, hdefinition,
    Effect.bornDefined_append_of_mentioned (hreachable.mentioned hname), hstate]
  simpa using hfollows registry name function hname

theorem FollowsHistory.effect (hfollows : moment.FollowsHistory) (hreachable : moment.Reachable)
    {effect : Effect} {after : World} (hchange : effect.FunctionChange moment.world after) :
    FollowsHistory { moment with world := after, journal := moment.journal ++ [effect] } := by
  intro registry name function hname
  dsimp only at hname ⊢
  cases hchange with
  | unchanged hfunctions hnames _ hdefinition =>
    rw [World.functionNamed?_of_same hnames] at hname
    refine hfollows.keep hreachable hname ?_ (hdefinition registry name)
    rw [World.functionState, hfunctions]
    rfl
  | created otherRegistry otherName definition hnew hfunctions hnames hmentioned hdefinition =>
    rw [World.functionNamed?_of_created hnames] at hname
    split at hname
    · next hsame =>
      obtain ⟨rfl, rfl⟩ := hsame
      obtain rfl := Option.some.inj hname
      have hbefore := hreachable.not_mentioned hnew
      rw [Effect.registrations_append, Effect.registrations_eq_nil hbefore,
        Effect.bornDefined_append_of_new hbefore (by rw [hmentioned, if_pos rfl]), hdefinition,
        if_pos ⟨rfl, rfl⟩, World.functionState_of_push hfunctions, if_pos rfl]
      exact .new name definition
    · next hother =>
      refine hfollows.keep hreachable hname ?_ ?_
      · rw [World.functionState_of_push hfunctions,
          if_neg (hreachable.canonical.ne_new hname)]
      · rw [hdefinition, if_neg fun h ↦ hother ⟨h.1.symm, h.2.symm⟩]
  | redefined otherRegistry otherName otherFunction definition hknown hfunctions hnames
      hmentioned hdefinition =>
    rw [World.functionNamed?_of_same hnames] at hname
    by_cases hsame : otherRegistry = registry ∧ otherName = name
    · obtain ⟨rfl, rfl⟩ := hsame
      obtain rfl := Option.some.inj (hknown.symm.trans hname)
      rw [Effect.registrations_append, hdefinition, if_pos ⟨rfl, rfl⟩,
        Effect.bornDefined_append_of_mentioned (hreachable.mentioned hname),
        World.functionState_of_redefine hfunctions,
        if_pos ⟨rfl, hreachable.canonical.hasFunction hname⟩]
      exact (hfollows _ _ _ hname).redefine definition
    · refine hfollows.keep hreachable hname ?_ (by rw [hdefinition, if_neg hsame])
      rw [World.functionState_of_redefine hfunctions, if_neg]
      rintro ⟨rfl, -⟩
      exact hsame (hreachable.canonical.injective hknown hname)

theorem Reachable.followsHistory (hreachable : moment.Reachable) : moment.FollowsHistory := by
  apply hreachable.invariant (motive := FollowsHistory)
  · exact nofun
  · intro before after hbefore hfollows step
    cases step with
    | effect effect hallowed => exact hfollows.effect hbefore (effect.functionChange hallowed)
    | enter | leave => exact hfollows

/-- The generation grows with the registrations. -/
theorem Leads.generation_add (hleads : earlier.Leads later) (hearlier : earlier.Reachable)
    {registry : RegistryId} {name : String} {function : FunctionId}
    (hname : earlier.world.functionNamed? registry name = some function) :
    (later.world.functionState function).generation +
        (Effect.registrations registry name earlier.journal).length =
      (earlier.world.functionState function).generation +
        (Effect.registrations registry name later.journal).length := by
  have hbefore := (hearlier.followsHistory _ _ _ hname).generation
  have hafter := ((hearlier.leads hleads).followsHistory _ _ _
    (hleads.keepsNames.function hname)).generation
  obtain ⟨more, hjournal⟩ := hleads.journal_prefix
  have hborn := Effect.bornDefined_append_of_mentioned (hearlier.mentioned hname) more
  rw [hjournal] at hborn
  rw [hborn] at hafter
  omega

/-- While the generation stays, so does the definition. -/
theorem Leads.definition_eq (hleads : earlier.Leads later) (hearlier : earlier.Reachable)
    {registry : RegistryId} {name : String} {function : FunctionId}
    (hname : earlier.world.functionNamed? registry name = some function)
    (hgeneration : (later.world.functionState function).generation =
      (earlier.world.functionState function).generation) :
    (later.world.functionState function).definition =
      (earlier.world.functionState function).definition := by
  have hinitial : Effect.registrations registry name earlier.journal <+:
      Effect.registrations registry name later.journal := by
    obtain ⟨more, hjournal⟩ := hleads.journal_prefix
    rw [← hjournal, Effect.registrations, Effect.registrations, List.filterMap_append]
    exact List.prefix_append _ _
  have hlength := hleads.generation_add hearlier hname
  rw [hgeneration, Nat.add_left_cancel_iff] at hlength
  have hkept := hleads.keepsNames.function hname
  calc
    (later.world.functionState function).definition =
        (Effect.registrations registry name later.journal).getLast? :=
      ((hearlier.leads hleads).followsHistory registry name function hkept).definition
    _ = (Effect.registrations registry name earlier.journal).getLast? := by
      rw [hinitial.eq_of_length hlength]
    _ = (earlier.world.functionState function).definition :=
      (hearlier.followsHistory registry name function hname).definition.symm

end Moment

end GuestCore
