import GuestCore.Session.Run
import Mathlib.Data.List.Induction

/-!
# Members Follow Their Requests

A member table is determined by the requests that it has served since it was empty.  The content
of a name is the one that was put there last, unless the name was removed since.  The order of the
names is that of their arrivals: a name arrives when it was absent and comes to be present, so a
content that is replaced leaves its name in place, and a name that is removed and comes back goes
to the end.
-/

namespace GuestCore

namespace Members

variable {α : Type}

inductive Request (α : Type) where
  | read (key : String)
  | get (key : String)
  | contains (key : String)
  | isInsertable (key : String)
  | write (key : String) (value : α)
  | remove (key : String)
  | getOrInsert (key : String) (initial : α)

inductive Reply (α : Type) where
  | result (result : Except Fault α)
  | found (content : Option α)
  | verdict (answer : Bool)
  | written
  /-- The content of a member, and whether it was inserted just now. -/
  | content (value : α) (inserted : Bool)

namespace Request

/-- The reply to a request, and the table afterwards. -/
def serve (table : Members α) : Request α → Reply α × Members α
  | read key => (.result (table.read key), table)
  | get key => (.found (table.get? key), table)
  | contains key => (.verdict (table.contains key), table)
  | isInsertable key => (.verdict (table.isInsertable key), table)
  | write key value => (.written, table.insert key value)
  | remove key =>
    match table.remove key with
    | .ok (value, rest) => (.result (.ok value), rest)
    | .error fault => (.result (.error fault), table)
  | getOrInsert key initial =>
    let (value, inserted, after) := table.getOrInsert key initial
    (.content value inserted, after)

/-- The content that the request puts under the name: a written one, or an initial one if the name
is absent. -/
def puts? (key : String) (table : Members α) : Request α → Option α
  | write other value => if other = key then some value else none
  | getOrInsert other initial =>
    if other = key ∧ table.contains key = false then some initial else none
  | _ => none

/-- Whether the request removes the name, which must be present. -/
def removes (key : String) (table : Members α) : Request α → Bool
  | remove other => other == key && table.contains key
  | _ => false

end Request

/-! ## One request -/

theorem contains_eq_false_iff (table : Members α) (key : String) :
    table.contains key = false ↔ table.get? key = none := by
  simp [contains]

theorem contains_eq_true_iff (table : Members α) (key : String) :
    table.contains key = true ↔ ∃ value, table.get? key = some value :=
  Option.isSome_iff_exists

theorem not_mem_keys_of_get? {table : Members α} {key : String} (hkey : table.get? key = none) :
    key ∉ table.keys := by
  rw [← contains_iff_mem_keys, (contains_eq_false_iff table key).mpr hkey]
  exact Bool.false_ne_true

theorem mem_keys_of_get? {table : Members α} {key : String} {value : α}
    (hkey : table.get? key = some value) : key ∈ table.keys :=
  (contains_iff_mem_keys table key).mp ((contains_eq_true_iff table key).mpr ⟨value, hkey⟩)

/-- The replies about a name that is present.  All but the removal leave the table as it is. -/
structure AnswersPresent (table : Members α) (key : String) (value : α) : Prop where
  read : (Request.read key).serve table = (.result (.ok value), table)
  get : (Request.get key).serve table = (.found (some value), table)
  contains : (Request.contains key).serve table = (.verdict true, table)
  isInsertable : (Request.isInsertable key).serve table = (.verdict false, table)
  getOrInsert : ∀ initial,
    (Request.getOrInsert key initial).serve table = (.content value false, table)
  remove : (Request.remove key).serve table = (.result (.ok value), table.erase key)

/-- The replies about a name that is absent.  Only an insertion changes the table. -/
structure AnswersAbsent (table : Members α) (key : String) : Prop where
  read : (Request.read key).serve table = (.result (.error (.unknownMember key)), table)
  get : (Request.get key).serve table = (.found none, table)
  contains : (Request.contains key).serve table = (.verdict false, table)
  isInsertable : (Request.isInsertable key).serve table = (.verdict true, table)
  getOrInsert : ∀ initial, (Request.getOrInsert key initial).serve table =
    (.content initial true, table.insert key initial)
  remove : (Request.remove key).serve table = (.result (.error (.unknownMember key)), table)

theorem answersPresent {table : Members α} {key : String} {value : α}
    (hkey : table.get? key = some value) : table.AnswersPresent key value := by
  constructor <;>
    simp [Request.serve, read, contains, isInsertable, getOrInsert, remove, hkey]

theorem answersAbsent {table : Members α} {key : String} (hkey : table.get? key = none) :
    table.AnswersAbsent key := by
  constructor <;>
    simp [Request.serve, read, contains, isInsertable, getOrInsert, remove, hkey]

namespace Request

/-- What a request makes of a table: nothing new, the table with a name put, or the table without
one of its names. -/
inductive Change (table : Members α) (request : Request α) (after : Members α) : Prop where
  | unchanged
      (hafter : after = table)
      (hputs : ∀ key, request.puts? key table = none)
      (hremoves : ∀ key, request.removes key table = false)
  | put (key : String) (value : α)
      (hafter : after = table.insert key value)
      (hputs : ∀ other, request.puts? other table = if other = key then some value else none)
      (hremoves : ∀ other, request.removes other table = false)
  | removed (key : String)
      (hafter : after = table.erase key)
      (hpresent : key ∈ table.keys)
      (hputs : ∀ other, request.puts? other table = none)
      (hremoves : ∀ other, request.removes other table = decide (other = key))

theorem change (request : Request α) (table : Members α) :
    Change table request (request.serve table).2 := by
  cases request with
  | read key | get key | contains key | isInsertable key =>
    exact .unchanged rfl (fun _ ↦ rfl) fun _ ↦ rfl
  | write key value =>
    exact .put key value rfl (fun other ↦ by simp only [puts?, eq_comm]) fun _ ↦ rfl
  | remove key =>
    cases hkey : table.get? key with
    | some value =>
      rw [(answersPresent hkey).remove]
      refine .removed key rfl (mem_keys_of_get? hkey) (fun _ ↦ rfl) fun other ↦ ?_
      by_cases h : other = key
      · simp [removes, h, Members.contains, hkey]
      · simp [removes, h, Ne.symm h]
    | none =>
      rw [(answersAbsent hkey).remove]
      refine .unchanged rfl (fun _ ↦ rfl) fun other ↦ ?_
      by_cases h : other = key
      · simp [removes, h, Members.contains, hkey]
      · simp [removes, Ne.symm h]
  | getOrInsert key initial =>
    cases hkey : table.get? key with
    | some value =>
      rw [(answersPresent hkey).getOrInsert]
      refine .unchanged rfl (fun other ↦ ?_) fun _ ↦ rfl
      by_cases h : other = key
      · simp [puts?, h, Members.contains, hkey]
      · simp [puts?, Ne.symm h]
    | none =>
      rw [(answersAbsent hkey).getOrInsert]
      refine .put key initial rfl (fun other ↦ ?_) fun _ ↦ rfl
      by_cases h : other = key
      · simp [puts?, h, Members.contains, hkey]
      · simp [puts?, h, Ne.symm h]

theorem get?_serve (request : Request α) (table : Members α) (key : String) :
    (request.serve table).2.get? key =
      if request.removes key table then none
      else (request.puts? key table).or (table.get? key) := by
  cases request.change table with
  | unchanged hafter hputs hremoves => simp [hafter, hputs, hremoves]
  | put other value hafter hputs hremoves =>
    rw [hafter, get?_insert, hputs, hremoves]
    split <;> rfl
  | removed other hafter _ hputs hremoves => simp [hafter, get?_erase, hputs, hremoves]

end Request

/-! ## A history of requests -/

/-- The table that serves the requests one after another, beginning empty. -/
def tableAfter (requests : List (Request α)) : Members α :=
  requests.foldl (fun table request ↦ (request.serve table).2) empty

@[simp]
theorem tableAfter_append (requests : List (Request α)) (request : Request α) :
    tableAfter (requests ++ [request]) = (request.serve (tableAfter requests)).2 := by
  simp [tableAfter]

/-- Something that a request does, given the table that it finds. -/
abbrev Event (α : Type) := Members α → Request α → Prop

/-- The request with the given number does it. -/
def At (event : Event α) (requests : List (Request α)) (time : Nat) : Prop :=
  ∃ request, requests[time]? = some request ∧ event (tableAfter (requests.take time)) request

/-- The request with the given number is the last one that does it. -/
structure LastAt (event : Event α) (requests : List (Request α)) (time : Nat) : Prop where
  happens : At event requests time
  latest : ∀ other, At event requests other → other ≤ time

/-- Something is put under the name. -/
def Puts (key : String) : Event α := fun table request ↦
  (request.puts? key table).isSome

/-- That value is put under the name. -/
def PutsValue (key : String) (value : α) : Event α := fun table request ↦
  request.puts? key table = some value

/-- The name is removed. -/
def Removes (key : String) : Event α := fun table request ↦
  request.removes key table = true

/-- The name was absent and comes to be present. -/
def Arrives (key : String) : Event α := fun table request ↦
  table.contains key = false ∧ (request.serve table).2.contains key = true

variable {event : Event α} {requests : List (Request α)} {request : Request α} {time : Nat}

theorem At.lt_length (hat : At event requests time) : time < requests.length := by
  obtain ⟨request, hrequest, -⟩ := hat
  exact (List.getElem?_eq_some_iff.mp hrequest).1

theorem at_append : At event (requests ++ [request]) time ↔
    At event requests time ∨ time = requests.length ∧ event (tableAfter requests) request := by
  rcases Nat.lt_trichotomy time requests.length with hlt | rfl | hgt
  · have htake : (requests ++ [request]).take time = requests.take time :=
      List.take_append_of_le_length (Nat.le_of_lt hlt)
    simp [At, List.getElem?_append_left hlt, htake, Nat.ne_of_lt hlt]
  · simp [At]
  · have hlater : (requests ++ [request])[time]? = none := by simp; omega
    have hpast : requests[time]? = none := by simp; omega
    simp [At, hlater, hpast, Nat.ne_of_gt hgt]

theorem lastAt_append_of_event (hevent : event (tableAfter requests) request) :
    LastAt event (requests ++ [request]) time ↔ time = requests.length := by
  have hlast : At event (requests ++ [request]) requests.length :=
    at_append.mpr (.inr ⟨rfl, hevent⟩)
  have hbound {other : Nat} (hat : At event (requests ++ [request]) other) :
      other ≤ requests.length := by
    have hlt := hat.lt_length
    rw [List.length_append, List.length_singleton] at hlt
    omega
  constructor
  · intro h
    exact Nat.le_antisymm (hbound h.happens) (h.latest _ hlast)
  · rintro rfl
    exact ⟨hlast, fun _ ↦ hbound⟩

theorem lastAt_append_of_not (hevent : ¬ event (tableAfter requests) request) :
    LastAt event (requests ++ [request]) time ↔ LastAt event requests time := by
  have hat (other : Nat) : At event (requests ++ [request]) other ↔ At event requests other := by
    simp [at_append, hevent]
  exact ⟨fun h ↦ ⟨(hat _).mp h.happens, fun other hother ↦ h.latest other ((hat _).mpr hother)⟩,
    fun h ↦ ⟨(hat _).mpr h.happens, fun other hother ↦ h.latest other ((hat _).mp hother)⟩⟩

/-! ## Contents -/

/-- The last content that was put under the name, by a request that comes after every removal of
the name. -/
def LastPut (requests : List (Request α)) (key : String) (value : α) : Prop :=
  ∃ time, LastAt (Puts key) requests time ∧ At (PutsValue key value) requests time ∧
    ∀ removal, LastAt (Removes key) requests removal → removal < time

theorem not_removes_of_puts {table : Members α} {key : String}
    (hputs : Puts key table request) : ¬ Removes key table request := by
  cases request <;> simp_all [Puts, Removes, Request.puts?, Request.removes]

theorem lastPut_append_of_puts {key : String} {content value : α}
    (hcontent : request.puts? key (tableAfter requests) = some content) :
    LastPut (requests ++ [request]) key value ↔ content = value := by
  have hputs : Puts key (tableAfter requests) request := by simp [Puts, hcontent]
  have hnow : At (PutsValue key value) (requests ++ [request]) requests.length ↔
      content = value := by
    have hpast : ¬ At (PutsValue key value) requests requests.length := fun hat ↦
      Nat.lt_irrefl _ hat.lt_length
    simp [at_append, hpast, PutsValue, hcontent]
  simp only [LastPut, lastAt_append_of_event hputs, exists_eq_left, hnow,
    lastAt_append_of_not (not_removes_of_puts hputs)]
  exact and_iff_left fun removal hremoval ↦ hremoval.happens.lt_length

theorem not_lastPut_append_of_removes {key : String} {value : α}
    (hremoves : Removes key (tableAfter requests) request) :
    ¬ LastPut (requests ++ [request]) key value := by
  rintro ⟨time, hlast, -, hremoval⟩
  have hputs : ¬ Puts key (tableAfter requests) request := fun hputs ↦
    not_removes_of_puts hputs hremoves
  have hearlier := ((lastAt_append_of_not hputs).mp hlast).happens.lt_length
  have hlater := hremoval requests.length ((lastAt_append_of_event hremoves).mpr rfl)
  omega

theorem lastPut_append_of_neither {key : String} {value : α}
    (hputs : request.puts? key (tableAfter requests) = none)
    (hremoves : ¬ Removes key (tableAfter requests) request) :
    LastPut (requests ++ [request]) key value ↔ LastPut requests key value := by
  have hnone : ¬ Puts key (tableAfter requests) request := by simp [Puts, hputs]
  have hat (time : Nat) : At (PutsValue key value) (requests ++ [request]) time ↔
      At (PutsValue key value) requests time := by
    simp [at_append, PutsValue, hputs]
  simp only [LastPut, lastAt_append_of_not hnone, lastAt_append_of_not hremoves, hat]

/-- The content of a name is the one that was put there last, if the name was not removed since. -/
theorem get?_tableAfter (requests : List (Request α)) (key : String) (value : α) :
    (tableAfter requests).get? key = some value ↔ LastPut requests key value := by
  induction requests using List.reverseRecOn with
  | nil =>
    refine iff_of_false (by simp [tableAfter]) ?_
    rintro ⟨time, hlast, -⟩
    exact Nat.not_lt_zero _ hlast.happens.lt_length
  | append_singleton requests request ih =>
    rw [tableAfter_append, Request.get?_serve]
    by_cases hremoves : request.removes key (tableAfter requests) = true
    · rw [if_pos hremoves]
      exact iff_of_false nofun (not_lastPut_append_of_removes hremoves)
    · rw [if_neg hremoves]
      cases hputs : request.puts? key (tableAfter requests) with
      | some content =>
        rw [lastPut_append_of_puts hputs, Option.some_or, Option.some_inj]
      | none => rw [lastPut_append_of_neither hputs hremoves, Option.none_or, ih]

/-! ## Order -/

/-- The names stand in the order of their last arrivals. -/
structure InOrderOfArrival (requests : List (Request α)) (keys : List String) : Prop where
  arrived : ∀ key ∈ keys, ∃ time, LastAt (Arrives key) requests time
  ordered : keys.Pairwise fun earlier later ↦ ∀ first second,
    LastAt (Arrives earlier) requests first → LastAt (Arrives later) requests second →
      first < second

theorem not_arrives_of_mem {table : Members α} {key : String} (hkey : key ∈ table.keys) :
    ¬ Arrives key table request := by
  rintro ⟨habsent, -⟩
  rw [(contains_iff_mem_keys table key).mpr hkey] at habsent
  cases habsent

namespace InOrderOfArrival

variable {keys kept : List String}

/-- Names that are kept do not arrive again. -/
theorem keep (horder : InOrderOfArrival requests keys) (hsublist : kept.Sublist keys)
    (hpresent : ∀ key ∈ kept, ¬ Arrives key (tableAfter requests) request) :
    InOrderOfArrival (requests ++ [request]) kept where
  arrived key hkey := by
    simp only [lastAt_append_of_not (hpresent key hkey)]
    exact horder.arrived key (hsublist.mem hkey)
  ordered := by
    refine (horder.ordered.sublist hsublist).imp_of_mem ?_
    intro earlier later hearlier hlater hlt
    simpa only [lastAt_append_of_not (hpresent earlier hearlier),
      lastAt_append_of_not (hpresent later hlater)] using hlt

/-- A name that arrives now comes after all others. -/
theorem add (horder : InOrderOfArrival (requests ++ [request]) keys) {key : String}
    (hpresent : ∀ other ∈ keys, ¬ Arrives other (tableAfter requests) request)
    (harrives : Arrives key (tableAfter requests) request) :
    InOrderOfArrival (requests ++ [request]) (keys ++ [key]) where
  arrived other hother := by
    rcases List.mem_append.mp hother with hold | hnew
    · exact horder.arrived other hold
    · obtain rfl := List.mem_singleton.mp hnew
      exact ⟨requests.length, (lastAt_append_of_event harrives).mpr rfl⟩
  ordered := by
    refine List.pairwise_append.mpr ⟨horder.ordered, List.pairwise_singleton _ _, ?_⟩
    intro earlier hearlier later hlater first second hfirst hsecond
    obtain rfl := List.mem_singleton.mp hlater
    rw [lastAt_append_of_not (hpresent earlier hearlier)] at hfirst
    rw [lastAt_append_of_event harrives] at hsecond
    exact hsecond ▸ hfirst.happens.lt_length

end InOrderOfArrival

theorem inOrderOfArrival_tableAfter (requests : List (Request α)) :
    InOrderOfArrival requests (tableAfter requests).keys := by
  induction requests using List.reverseRecOn with
  | nil => exact ⟨nofun, .nil⟩
  | append_singleton requests request ih =>
    have hpresent (key : String) (hkey : key ∈ (tableAfter requests).keys) :
        ¬ Arrives key (tableAfter requests) request := not_arrives_of_mem hkey
    rw [tableAfter_append]
    cases request.change (tableAfter requests) with
    | unchanged hafter =>
      rw [hafter]
      exact ih.keep (List.Sublist.refl _) hpresent
    | removed key hafter =>
      rw [hafter, keys_erase]
      exact ih.keep List.filter_sublist fun other hother ↦
        hpresent other (List.mem_filter.mp hother).1
    | put key value hafter =>
      have hkept := ih.keep (List.Sublist.refl _) hpresent
      rw [hafter, keys_insert]
      split
      · exact hkept
      · next hnew =>
        refine hkept.add hpresent ⟨?_, ?_⟩
        · rwa [← contains_iff_mem_keys, Bool.not_eq_true] at hnew
        · simp [hafter, contains, get?_insert]

/-! ## The law of a table -/

theorem lookup_of_mem {entries : List (String × α)} (hdistinct : (entries.map Prod.fst).Nodup)
    {entry : String × α} (hentry : entry ∈ entries) :
    entries.lookup entry.1 = some entry.2 := by
  induction entries with
  | nil => cases hentry
  | cons first rest ih =>
    obtain ⟨hfirst, hrest⟩ := List.nodup_cons.mp hdistinct
    rw [List.lookup_cons]
    rcases List.mem_cons.mp hentry with rfl | hmem
    · simp
    · have hne : entry.1 ≠ first.1 := fun heq ↦ hfirst (heq ▸ List.mem_map_of_mem hmem)
      simpa [beq_false_of_ne hne] using ih hrest hmem

theorem map_some_values (table : Members α) :
    table.values.map some = table.keys.map table.get? := by
  rw [values, keys, List.map_map, List.map_map]
  exact List.map_congr_left fun entry hentry ↦ (lookup_of_mem table.distinct hentry).symm

theorem keys_erase_eq (table : Members α) (key : String) :
    (table.erase key).keys = table.keys.erase key := by
  rw [keys_erase, table.nodup_keys.erase_eq_filter]
  exact List.filter_congr fun name _ ↦ by simp [bne, beq_eq_decide]

theorem keys_serve_remove (table : Members α) (key : String) :
    ((Request.remove key).serve table).2.keys = table.keys.erase key := by
  cases hkey : table.get? key with
  | some value => rw [(answersPresent hkey).remove, keys_erase_eq]
  | none =>
    rw [(answersAbsent hkey).remove, List.erase_of_not_mem (not_mem_keys_of_get? hkey)]

/-- What the requests that a table has served say about it. -/
structure FollowsRequests (requests : List (Request α)) (table : Members α) : Prop where
  /-- A name is present exactly if it was last put there after it was last removed. -/
  present : ∀ key, table.contains key = true ↔ ∃ time, LastAt (Puts key) requests time ∧
    ∀ removal, LastAt (Removes key) requests removal → removal < time
  content : ∀ key value, table.get? key = some value ↔ LastPut requests key value
  answersPresent : ∀ key value, LastPut requests key value → table.AnswersPresent key value
  answersAbsent : ∀ key, (∀ value, ¬ LastPut requests key value) → table.AnswersAbsent key
  names : ∀ key, key ∈ table.keys ↔ table.contains key = true
  nodup : table.keys.Nodup
  order : InOrderOfArrival requests table.keys
  overwritten : ∀ key ∈ table.keys, ∀ value,
    ((Request.write key value).serve table).2.keys = table.keys
  removed : ∀ key, ((Request.remove key).serve table).2.keys = table.keys.erase key
  /-- A name that is removed and comes back goes to the end. -/
  returned : ∀ key value,
    ((Request.write key value).serve ((Request.remove key).serve table).2).2.keys =
      table.keys.erase key ++ [key]
  aligned : table.values.map some = table.keys.map table.get?
  length_keys : table.keys.length = table.size
  length_values : table.values.length = table.size

theorem followsRequests_tableAfter (requests : List (Request α)) :
    FollowsRequests requests (tableAfter requests) where
  present key := by
    simp only [contains_eq_true_iff, get?_tableAfter, LastPut]
    constructor
    · rintro ⟨value, time, hlast, -, hremoval⟩
      exact ⟨time, hlast, hremoval⟩
    · rintro ⟨time, hlast, hremoval⟩
      obtain ⟨request, hrequest, hputs⟩ := hlast.happens
      obtain ⟨value, hvalue⟩ := Option.isSome_iff_exists.mp hputs
      exact ⟨value, time, hlast, ⟨request, hrequest, hvalue⟩, hremoval⟩
  content := get?_tableAfter requests
  answersPresent key value hput :=
    Members.answersPresent ((get?_tableAfter requests key value).mpr hput)
  answersAbsent key hnone := by
    apply Members.answersAbsent
    rw [Option.eq_none_iff_forall_ne_some]
    exact fun value hvalue ↦ hnone value ((get?_tableAfter requests key value).mp hvalue)
  names key := (contains_iff_mem_keys _ key).symm
  nodup := nodup_keys _
  order := inOrderOfArrival_tableAfter requests
  overwritten key hkey value := by
    rw [Request.serve, keys_insert, if_pos hkey]
  removed := keys_serve_remove _
  returned key value := by
    have habsent : key ∉ ((Request.remove key).serve (tableAfter requests)).2.keys := by
      rw [keys_serve_remove]
      exact (nodup_keys _).not_mem_erase
    rw [Request.serve, keys_insert, if_neg habsent, keys_serve_remove]
  aligned := map_some_values _
  length_keys := List.length_map _
  length_values := List.length_map _

end Members

/-! ## Objects -/

/-- A change of the members of an object depends on what they are now, and on nothing else. -/
theorem World.modifyMembers_const (world : World) (object : ObjectId)
    (change : Members Value → Members Value) :
    (world.modifyMembers object fun _ ↦ change (world.members object)) =
      world.modifyMembers object change := by
  have hcells :
      world.objects.cells.modify object.index (fun _ ↦ change (world.members object)) =
        world.objects.cells.modify object.index change := by
    apply Array.ext_getElem?
    intro index
    rw [Array.getElem?_modify, Array.getElem?_modify]
    split
    · next hindex =>
      subst hindex
      rw [World.members, Table.get, Array.getD_eq_getD_getElem?]
      cases world.objects.cells[object.index]? <;> rfl
    · rfl
  rw [World.modifyMembers, Table.modify, hcells]
  rfl

theorem World.modifyMembers_members (world : World) (object : ObjectId) :
    (world.modifyMembers object fun _ ↦ world.members object) = world := by
  rw [world.modifyMembers_const object fun members ↦ members]
  have hcells : world.objects.cells.modify object.index (fun members ↦ members) =
      world.objects.cells := by
    apply Array.ext_getElem?
    intro index
    simp [Array.getElem?_modify]
  rw [World.modifyMembers, Table.modify, hcells]

namespace Session

/-- The request that a step makes to the members of an object; its content is built first. -/
def StoreRequest.build (key : String) : StoreRequest → Script (Members.Request Value)
  | read => return .read key
  | remove => return .remove key
  | get => return .get key
  | write content => return .write key (← content.build)
  | getOrInsert content => return .getOrInsert key (← content.build)
  | contains => return .contains key

def StoreOutcome.ofReply (world : World) : Members.Reply Value → StoreOutcome
  | .result reply => result (shownResult world reply)
  | .found content => found (content.map (Shown.ofValue world))
  | .verdict answer => presence answer !answer
  | .written => written
  | .content value inserted => insertion (.ofValue world value) inserted

/-- Serves a request with the members of an object. -/
def Script.serve (object : ObjectId) (request : Members.Request Value) : Script StoreOutcome := do
  let reply ← Script.change fun world ↦
    let (reply, members) := request.serve (world.members object)
    (reply, world.modifyMembers object fun _ ↦ members)
  return .ofReply (← Script.world) reply

theorem Script.world_bind_apply {α : Type} (next : World → Script α) (state : State) :
    (Script.world >>= next) state = next state.world state :=
  rfl

theorem Script.run_serve (object : ObjectId) (request : Members.Request Value) (state : State) :
    (Script.serve object request).run state =
      let (reply, members) := request.serve (state.world.members object)
      let world := state.world.modifyMembers object fun _ ↦ members
      .ok (.ofReply world reply, { state with world }) := rfl

/-- A request that leaves the members as they are leaves the whole state as it is. -/
theorem Script.run_serve_of_unchanged (object : ObjectId) (request : Members.Request Value)
    {state : State} {reply : Members.Reply Value}
    (hserve : request.serve (state.world.members object) = (reply, state.world.members object)) :
    (Script.serve object request).run state = .ok (.ofReply state.world reply, state) := by
  rw [Script.run_serve, hserve]
  dsimp only
  rw [World.modifyMembers_members]

/-- A step of a session that addresses the members of an object has them serve the request. -/
theorem answerStore_eq_serve (object : ObjectId) (key : String) (request : StoreRequest) :
    answerStore object key request = request.build key >>= Script.serve object := by
  cases request with
  | read =>
    rw [StoreRequest.build, pure_bind]
    funext state
    exact (Script.run_serve_of_unchanged object (.read key) rfl).symm
  | get =>
    rw [StoreRequest.build, pure_bind]
    funext state
    exact (Script.run_serve_of_unchanged object (.get key) rfl).symm
  | contains =>
    rw [StoreRequest.build, pure_bind]
    funext state
    exact (Script.run_serve_of_unchanged object (.contains key) rfl).symm
  | write content =>
    rw [StoreRequest.build, bind_assoc]
    refine bind_congr fun value ↦ ?_
    rw [pure_bind]
    funext state
    change Except.ok (StoreOutcome.written, { state with
      world := state.world.modifyMembers object fun members ↦ members.insert key value }) = _
    rw [← World.modifyMembers_const]
    rfl
  | remove =>
    rw [StoreRequest.build, pure_bind]
    funext state
    rw [answerStore, Script.world_bind_apply]
    cases hkey : (state.world.members object).get? key with
    | some value =>
      have hserve := (Members.answersPresent hkey).remove
      have hrun := Script.run_serve object (.remove key) state
      rw [hserve] at hrun
      rw [Members.remove, hkey]
      exact hrun.symm
    | none =>
      have hserve := (Members.answersAbsent hkey).remove
      rw [Members.remove, hkey]
      exact (Script.run_serve_of_unchanged object (.remove key) hserve).symm
  | getOrInsert content =>
    rw [StoreRequest.build, bind_assoc]
    refine bind_congr fun value ↦ ?_
    rw [pure_bind]
    rfl

end Session

/-- After any requests a member table is the one that follows from them, and so are its further
replies.  The steps of a session that address the members of an object are such requests. -/
theorem members_follow_requests :
    (∀ (α : Type) (requests : List (Members.Request α)),
      (Members.tableAfter requests).FollowsRequests requests) ∧
    ∀ (object : ObjectId) (key : String) (request : Session.StoreRequest),
      Session.answerStore object key request =
        request.build key >>= Session.Script.serve object :=
  ⟨fun _ ↦ Members.followsRequests_tableAfter, Session.answerStore_eq_serve⟩

/-- Names that are overwritten, removed in vain, removed and brought back. -/
theorem members_follow_requests_returning_name :
    let requests : List (Members.Request Nat) :=
      [.write "a" 1, .write "b" 2, .write "c" 3, .getOrInsert "b" 4, .write "b" 5, .remove "d",
        .remove "a", .getOrInsert "a" 6]
    (Members.tableAfter requests).keys = ["b", "c", "a"] ∧
      (Members.tableAfter requests).AnswersPresent "a" 6 ∧
      (Members.tableAfter requests).AnswersAbsent "d" ∧
      Members.InOrderOfArrival requests ["b", "c", "a"] := by
  intro requests
  obtain ⟨-, hcontent, hpresent, habsent, -, -, horder, -⟩ :=
    members_follow_requests.1 Nat requests
  have hnone : (Members.tableAfter requests).get? "d" = none := by decide
  refine ⟨by decide, hpresent "a" 6 ((hcontent "a" 6).mp (by decide)), habsent "d" ?_, horder⟩
  intro value hput
  have hsome := (hcontent "d" value).mpr hput
  rw [hnone] at hsome
  cases hsome

end GuestCore
