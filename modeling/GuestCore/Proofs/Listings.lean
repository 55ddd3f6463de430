import GuestCore.Proofs.Canonical
import GuestCore.Proofs.MemberHistory
import GuestCore.Proofs.Utf8Order

/-!
# Listings of a Registry

A registry lists its functions in two ways: sorted by name, and as the members of an object in the
order in which the names came up.  Both list the same functions at every moment.  The sorted list is
determined by the names alone, because the order of names is strict.  The object holds nothing of
its own, so it shows what is registered after it was obtained, and it cannot be written to.
-/

namespace GuestCore

namespace World

variable {world : World} {registry : RegistryId}

/-- The names of some functions. -/
def namesOf (world : World) (functions : List FunctionId) : List String :=
  functions.map fun function ↦ (world.functionState function).name

/-- Of two names the first one comes first byte by byte. -/
def Precedes (name other : String) : Prop :=
  Text.utf8 name < Text.utf8 other

/-! ## The functions of a registry -/

theorem mem_values_iff {function : FunctionId} :
    function ∈ (world.registry registry).functions.values ↔
      ∃ name, world.functionNamed? registry name = some function := by
  have hvalues := (world.registry registry).functions.map_some_values
  constructor
  · intro hmem
    have hsome := List.mem_map_of_mem (f := some) hmem
    rw [hvalues] at hsome
    obtain ⟨name, -, hname⟩ := List.mem_map.mp hsome
    exact ⟨name, hname⟩
  · rintro ⟨name, hname⟩
    have hkey : name ∈ (world.registry registry).functions.keys := by
      rw [← isSome_functionNamed?, hname]
      rfl
    have hsome := List.mem_map_of_mem (f := (world.registry registry).functions.get?) hkey
    rw [← hvalues] at hsome
    obtain ⟨other, hmem, hother⟩ := List.mem_map.mp hsome
    obtain rfl := Option.some.inj (hother.trans hname)
    exact hmem

/-- Functions carry the names under which they are registered. -/
theorem Canonical.namesOf_values (hcanonical : world.Canonical) (registry : RegistryId) :
    world.namesOf (world.registry registry).functions.values =
      (world.registry registry).functions.keys := by
  rw [namesOf, Members.values, Members.keys, List.map_map]
  exact List.map_congr_left fun entry hentry ↦
    hcanonical.name_eq (Members.lookup_of_mem (world.registry registry).functions.distinct hentry)

/-! ## Sorted by name -/

theorem perm_functionsByName (world : World) (registry : RegistryId) :
    (world.functionsByName registry).Perm (world.registry registry).functions.values :=
  List.mergeSort_perm _ _

theorem Canonical.perm_namesOf_functionsByName (hcanonical : world.Canonical)
    (registry : RegistryId) :
    (world.namesOf (world.functionsByName registry)).Perm
      (world.registry registry).functions.keys := by
  rw [← hcanonical.namesOf_values]
  exact (perm_functionsByName world registry).map _

theorem pairwise_le_functionsByName (world : World) (registry : RegistryId) :
    (world.namesOf (world.functionsByName registry)).Pairwise (· ≤ ·) := by
  have hsorted : (world.functionsByName registry).Pairwise fun left right ↦
      decide ((world.functionState left).name ≤ (world.functionState right).name) = true :=
    List.pairwise_mergeSort
      (fun _ _ _ hfirst hsecond ↦ by
        rw [decide_eq_true_eq] at *
        exact le_trans hfirst hsecond)
      (fun _ _ ↦ by
        rw [Bool.or_eq_true, decide_eq_true_eq, decide_eq_true_eq]
        exact le_total _ _)
      (world.registry registry).functions.values
  rw [namesOf, List.pairwise_map]
  exact hsorted.imp of_decide_eq_true

/-- No name comes twice, so the order is strict. -/
theorem Canonical.pairwise_functionsByName (hcanonical : world.Canonical)
    (registry : RegistryId) :
    (world.namesOf (world.functionsByName registry)).Pairwise Precedes := by
  have hnodup : (world.namesOf (world.functionsByName registry)).Nodup :=
    (hcanonical.perm_namesOf_functionsByName registry).nodup_iff.mpr (Members.nodup_keys _)
  refine ((pairwise_le_functionsByName world registry).and hnodup).imp ?_
  rintro name other ⟨hle, hne⟩
  exact Text.utf8_lt_iff.mpr (lt_of_le_of_ne hle hne)

/-- The sorted list is that of the names, with the function of each. -/
theorem Canonical.functionsByName_eq (hcanonical : world.Canonical) (registry : RegistryId) :
    (world.functionsByName registry).map some =
      (world.namesOf (world.functionsByName registry)).map (world.functionNamed? registry) := by
  rw [namesOf, List.map_map]
  refine List.map_congr_left fun function hmem ↦ ?_
  obtain ⟨name, hname⟩ :=
    mem_values_iff.mp ((perm_functionsByName world registry).mem_iff.mp hmem)
  rw [Function.comp_apply, hcanonical.name_eq hname, hname]

/-- Only one list of the same names is strictly ascending. -/
theorem eq_of_pairwise_precedes {names others : List String} (hnames : names.Pairwise Precedes)
    (hothers : others.Pairwise Precedes) (hsame : names.Perm others) : names = others :=
  hsame.eq_of_pairwise
    (fun _ _ _ _ hbefore hafter ↦ absurd hafter (List.lt_asymm hbefore)) hnames hothers

/-! ## The object of functions -/

/-- The object answers with the function of the name, or with the fault that names it. -/
theorem readMember_functions (world : World) (registry : RegistryId) (name : String) :
    (Receiver.functions registry).readMember world name =
      match world.functionNamed? registry name with
      | some function => .ok (.function function)
      | none => .error (.unknownMember name) := rfl

theorem readMember_functions_eq_ok_iff {name : String} {value : Value} :
    (Receiver.functions registry).readMember world name = .ok value ↔
      ∃ function, world.functionNamed? registry name = some function ∧
        value = .function function := by
  rw [readMember_functions]
  cases world.functionNamed? registry name <;> simp [eq_comm]

end World

namespace Moment

variable {earlier later left right : Moment} {registry other : RegistryId}

theorem Reachable.perm_namesOf_functionsByName (hreachable : later.Reachable)
    (registry : RegistryId) :
    (later.world.namesOf (later.world.functionsByName registry)).Perm
      (later.firstMentions registry) := by
  rw [← hreachable.keys_eq_firstMentions]
  exact hreachable.canonical.perm_namesOf_functionsByName registry

/-- Registries that have the same names list them alike, in whatever order the names came up. -/
theorem Reachable.namesOf_functionsByName_eq (hleft : left.Reachable) (hright : right.Reachable)
    (hsame : ∀ name, (left.world.find registry name).1.isSome = true ↔
      (right.world.find other name).1.isSome = true) :
    left.world.namesOf (left.world.functionsByName registry) =
      right.world.namesOf (right.world.functionsByName other) := by
  refine World.eq_of_pairwise_precedes (hleft.canonical.pairwise_functionsByName registry)
    (hright.canonical.pairwise_functionsByName other) ?_
  have hkeys : (left.world.registry registry).functions.keys.Perm
      (right.world.registry other).functions.keys := by
    refine (List.perm_ext_iff_of_nodup (Members.nodup_keys _) (Members.nodup_keys _)).mpr ?_
    intro name
    rw [← World.isSome_functionNamed?, ← World.isSome_functionNamed?]
    exact hsame name
  exact (hleft.canonical.perm_namesOf_functionsByName registry).trans
    (hkeys.trans (hright.canonical.perm_namesOf_functionsByName other).symm)

/-- What a registry lists at a moment, sorted by name and as an object that was obtained at an
earlier one. -/
structure ListingsAgree (earlier later : Moment) (registry : RegistryId) : Prop where
  ascending : (later.world.namesOf (later.world.functionsByName registry)).Pairwise World.Precedes
  /-- The registered functions are sorted without loss or duplication. -/
  permutation : (later.world.functionsByName registry).Perm
    (later.world.registry registry).functions.values
  registered : ∀ function, function ∈ later.world.functionsByName registry ↔
    ∃ name, (later.world.find registry name).1 = some function
  functions_eq : (later.world.functionsByName registry).map some =
    (later.world.namesOf (later.world.functionsByName registry)).map
      fun name ↦ (later.world.find registry name).1
  /-- The members of the object are the names in the order of their creation. -/
  enumerated : (Receiver.functions registry).memberNames later.world =
    .ok (later.firstMentions registry)
  same_names : (later.world.namesOf (later.world.functionsByName registry)).Perm
    (later.firstMentions registry)
  readable : ∀ name, (Receiver.functions registry).isMemberReadable later.world name = true ↔
    (later.world.find registry name).1.isSome = true
  read : ∀ name function, (later.world.find registry name).1 = some function →
    (Receiver.functions registry).readMember later.world name = .ok (.function function)
  unresolved : ∀ name, (later.world.find registry name).1 = none →
    (Receiver.functions registry).readMember later.world name = .error (.unknownMember name)
  /-- What the object has shown it keeps showing. -/
  kept : ∀ name value,
    (Receiver.functions registry).readMember earlier.world name = .ok value →
      (Receiver.functions registry).readMember later.world name = .ok value
  written : ∀ name content,
    (Receiver.functions registry).writeMember name content later.world =
      .raised (.unsupportedMessage "write_member") later.world
  removed : ∀ name,
    (Receiver.functions registry).removeMember name later.world =
      .raised (.unsupportedMessage "remove_member") later.world

theorem Leads.listingsAgree (hleads : earlier.Leads later) (hearlier : earlier.Reachable)
    (registry : RegistryId) : ListingsAgree earlier later registry := by
  have hlater := hearlier.leads hleads
  exact {
    ascending := hlater.canonical.pairwise_functionsByName registry
    permutation := World.perm_functionsByName later.world registry
    registered := fun function ↦
      (World.perm_functionsByName later.world registry).mem_iff.trans World.mem_values_iff
    functions_eq := hlater.canonical.functionsByName_eq registry
    enumerated := congrArg Except.ok (hlater.keys_eq_firstMentions registry)
    same_names := hlater.perm_namesOf_functionsByName registry
    readable := fun _ ↦ Iff.rfl
    read := fun name function hname ↦
      World.readMember_functions_eq_ok_iff.mpr ⟨function, hname, rfl⟩
    unresolved := fun name hname ↦ by
      change later.world.functionNamed? registry name = none at hname
      rw [World.readMember_functions, hname]
    kept := fun name value hread ↦ by
      obtain ⟨function, hname, rfl⟩ := World.readMember_functions_eq_ok_iff.mp hread
      exact World.readMember_functions_eq_ok_iff.mpr
        ⟨function, hleads.keepsNames.function hname, rfl⟩
    written := fun _ _ ↦ rfl
    removed := fun _ ↦ rfl }

end Moment

end GuestCore
