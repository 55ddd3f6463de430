import GuestCore.Proofs.Isolation
import GuestCore.Proofs.RegistryHistory
import GuestCore.Proofs.SiteCalls
import Mathlib.Data.Nat.Factorial.Basic
import Mathlib.Logic.Function.Iterate

/-!
# A Recursive Function

A function that computes factorials calls itself through a call site, once for each number above
one.  Such a call goes down without changing anything but depth, trace and site, and multiplies on
the way back, so that the number of calls tells everything: whether a depth limit is met, and what
the site has counted.
-/

namespace GuestCore

/-- The factorial as a recursive function, with the operations that stand in it. -/
structure Factorial where
  name : String
  site : String
  comparison : Operation
  difference : Operation
  product : Operation
  location : Option Location

namespace Factorial

def body (program : Factorial) : Body Value :=
  .choose (.operator .le program.comparison (.argument 0) (.constant (.integer 1)))
    (.constant (.integer 1))
    (.operator .mul program.product (.argument 0)
      (.callAt program.site program.name
        [.operator .sub program.difference (.argument 0) (.constant (.integer 1))]))

def definition (program : Factorial) : Definition where
  body := program.body
  location := program.location

/-- What the function computes. -/
def value (n : ℤ) : ℤ :=
  if 1 ≤ n then n.toNat.factorial else 1

/-- The number of calls it takes. -/
def calls (n : ℤ) : ℕ :=
  (max n 1).toNat

variable {program : Factorial} {n : ℤ}

theorem value_of_le (hn : n ≤ 1) : value n = 1 := by
  rw [value]
  split
  · next hlower =>
    rw [Int.le_antisymm hn hlower]
    rfl
  · rfl

theorem value_of_lt (hn : 1 < n) : value n = n * value (n - 1) := by
  have hpredecessor : n.toNat = (n - 1).toNat + 1 := by omega
  have hlast : ((n - 1).toNat + 1 : ℕ) = n := by omega
  rw [value, value, if_pos (by omega), if_pos (by omega), hpredecessor, Nat.factorial_succ,
    Int.natCast_mul, hlast]

theorem calls_eq_one_iff : calls n = 1 ↔ n ≤ 1 := by
  unfold calls
  omega

theorem cast_calls (n : ℤ) : (calls n : ℤ) = max n 1 := by
  unfold calls
  omega

theorem exists_recursions (n : ℤ) : ∃ recursions, calls n = recursions + 1 := by
  refine ⟨calls n - 1, ?_⟩
  unfold calls
  omega

theorem one_lt_calls_iff : 1 < calls n ↔ 1 < n := by
  unfold calls
  omega

theorem calls_of_lt (hn : 1 < n) : calls n = calls (n - 1) + 1 := by
  unfold calls
  omega

/-! ## The body -/

section Eval

variable (routing : Routing) (run : Runner) (dispatcher : DispatcherId) (world : World)

theorem run_le (operation : Operation) (left right : ℤ) :
    Operator.run .le operation (.native (.integer left)) (.native (.integer right)) world =
      .returned (.boolean (left ≤ right)) world := rfl

theorem run_sub (operation : Operation) (left right : ℤ) :
    Operator.run .sub operation (.native (.integer left)) (.native (.integer right)) world =
      .returned (.integer (left - right)) world := rfl

theorem eval_body_of_le (hn : n ≤ 1) :
    program.body.eval routing run dispatcher [.integer n] world =
      .returned (.integer 1) world := by
  simp only [body, Body.eval, bind, Action.bind, pure, Action.pure, List.getD_cons_zero, run_le,
    decide_eq_true hn]

/-- Above one the function calls itself, in the world where the lookup of its name is recorded, and
multiplies afterwards. -/
theorem eval_body_of_lt (hn : 1 < n) {function : FunctionId}
    (hname : world.functionNamed? (world.dispatcher dispatcher).registry program.name =
      some function) :
    program.body.eval routing run dispatcher [.integer n] world =
      ((Route.throughSite program.site function).call routing run dispatcher
        [.integer (n - 1)]).bind
          (fun rest ↦ Operator.run .mul program.product (.native (.integer n)) (.native rest))
          (world.log (.lookup program.name true)) := by
  simp only [body, Body.eval, Body.evalAll, bind, Action.bind, pure, Action.pure, Action.state,
    List.getD_cons_zero, run_le, run_sub, decide_eq_false (Int.not_le.mpr hn),
    World.findOrCreate_of_some hname, Route.call]

theorem eval_body_of_raised {argument : Value} {fault : Fault}
    (hfault : Operator.run .le program.comparison (.native argument) (.native (.integer 1)) world =
      .raised fault world) :
    program.body.eval routing run dispatcher [argument] world = .raised fault world := by
  simp only [body, Body.eval, bind, Action.bind, pure, Action.pure, List.getD_cons_zero, hfault]

end Eval

/-! ## Calls -/

/-- The function is registered where the dispatcher looks for it. -/
structure Ready (program : Factorial) (dispatcher : DispatcherId) (function : FunctionId)
    (moment : Moment) : Prop where
  reachable : moment.Reachable
  hasDispatcher : moment.world.HasDispatcher dispatcher
  named : moment.world.functionNamed? (moment.world.dispatcher dispatcher).registry program.name =
    some function
  defined : (moment.world.functionState function).definition = some program.definition

/-- The later moment is that many calls deeper, and neither settings nor functions have changed
since the earlier one. -/
structure Deeper (dispatcher : DispatcherId) (levels : ℕ) (earlier later : Moment) : Prop where
  leads : earlier.Leads later
  depth_eq : later.world.depth dispatcher = earlier.world.depth dispatcher + levels
  config_eq : later.world.configOf dispatcher = earlier.world.configOf dispatcher
  functions_eq : later.world.functions = earlier.world.functions

/-- What a call through the site does to it. -/
def bookkeeping (routing : Routing) (call : SiteCall) (site : Site) : Site :=
  match routing with
  | .cached => site.note call
  | .generic => site

variable {dispatcher : DispatcherId} {function : FunctionId} {moment later : Moment}
  {route : Route}

namespace Deeper

variable {levels more : ℕ} {last : Moment}

theorem state_eq (hdeeper : Deeper dispatcher levels moment later) (function : FunctionId) :
    later.world.functionState function = moment.world.functionState function := by
  rw [World.functionState, hdeeper.functions_eq]
  rfl

theorem siteCall_eq (hdeeper : Deeper dispatcher levels moment later) (function : FunctionId) :
    later.world.siteCall dispatcher function = moment.world.siteCall dispatcher function := by
  rw [World.siteCall, World.siteCall, hdeeper.state_eq, hdeeper.config_eq]

theorem trans (hfirst : Deeper dispatcher levels moment later)
    (hsecond : Deeper dispatcher more later last) :
    Deeper dispatcher (levels + more) moment last where
  leads := hfirst.leads.trans hsecond.leads
  depth_eq := by rw [hsecond.depth_eq, hfirst.depth_eq, Nat.add_assoc]
  config_eq := hsecond.config_eq.trans hfirst.config_eq
  functions_eq := hsecond.functions_eq.trans hfirst.functions_eq

end Deeper

namespace Ready

theorem deeper (hready : program.Ready dispatcher function moment) {levels : ℕ}
    (hdeeper : Deeper dispatcher levels moment later) :
    program.Ready dispatcher function later where
  reachable := hready.reachable.leads hdeeper.leads
  hasDispatcher := hdeeper.leads.extends.hasDispatcher hready.hasDispatcher
  named := by
    rw [hdeeper.leads.extends.home dispatcher hready.hasDispatcher]
    exact hdeeper.leads.keepsNames.function hready.named
  defined := by rw [hdeeper.state_eq, hready.defined]

/-- The lookup of the name creates nothing. -/
theorem deeper_findOrCreate (hready : program.Ready dispatcher function moment) :
    ∃ journal, Deeper dispatcher 0 moment
      ⟨moment.world.log (.lookup program.name true), moment.active, journal⟩ := by
  have hleads := moment.leads_after
    [.findOrCreate (moment.world.dispatcher dispatcher).registry program.name]
    ⟨hready.reachable.wellFormed dispatcher hready.hasDispatcher, trivial⟩
  rw [Moment.after, Moment.after, Effect.apply, World.findOrCreate_of_some hready.named] at hleads
  exact ⟨_, hleads, rfl, rfl, rfl⟩

/-- Below the limit the body runs one call deeper, after the bookkeeping of the route. -/
theorem deeper_enter (hready : program.Ready dispatcher function moment)
    (hcallee : route.callee? moment.world dispatcher = some function)
    (hlimit : (moment.world.configOf dispatcher).reachedLimit?
      (moment.world.depth dispatcher) = none) (routing : Routing) (arguments : List Value) :
    ∃ inner, Deeper dispatcher 1 moment inner ∧
      inner.world.site program.site =
        (moment.after (route.effects routing moment.world dispatcher)).world.site program.site ∧
      ∀ allowance, route.call routing (run routing (allowance + 1)) dispatcher arguments
          moment.world =
        (program.body.eval routing (run routing allowance) dispatcher arguments).restoring
          (fun after ↦ after.setDepth dispatcher (moment.world.depth dispatcher))
          inner.world := by
  obtain ⟨inner, hleads, -, hvisible, hsites, hcall⟩ := Route.entered_below_limit
    hready.reachable hready.hasDispatcher hcallee hready.defined hlimit routing arguments
  refine ⟨inner, ⟨hleads, ?_, ?_, ?_⟩, World.site_eq_of_sites_eq hsites _, fun _ ↦ hcall _⟩
  · calc
      inner.world.depth dispatcher =
          (moment.world.setDepth dispatcher (moment.world.depth dispatcher + 1)).depth dispatcher :=
        World.eq_of_visible_eq (fun world ↦ world.depth dispatcher) (fun _ ↦ rfl) hvisible
      _ = moment.world.depth dispatcher + 1 := by
        rw [World.depth_setDepth _ hready.hasDispatcher, if_pos rfl]
  · exact hleads.extends.configOf hready.reachable.wellFormed hready.hasDispatcher
  · have hfunctions := World.functions_eq_of_visible_eq hvisible
    exact hfunctions

theorem reachedLimit?_eq_none {config : Config} {depth levels : ℕ} (hlevels : 0 < levels)
    (hroom : ∀ limit, config.depthLimit = some limit → depth + levels ≤ limit) :
    config.reachedLimit? depth = none := by
  refine Option.eq_none_iff_forall_ne_some.mpr fun limit hreached ↦ ?_
  obtain ⟨hlimit, hle⟩ := Config.reachedLimit?_eq_some.mp hreached
  have henough := hroom limit hlimit
  omega

/-- A call through the site is noted there before it begins. -/
theorem site_throughSite (program : Factorial) (dispatcher : DispatcherId)
    (function : FunctionId) (moment : Moment) (routing : Routing) :
    (moment.after ((Route.throughSite program.site function).effects routing moment.world
        dispatcher)).world.site program.site =
      bookkeeping routing (moment.world.siteCall dispatcher function)
        (moment.world.site program.site) := by
  cases routing with
  | cached =>
    refine (moment.world.site_noteCall dispatcher program.site program.site function).trans ?_
    rw [if_pos rfl]
    rfl
  | generic => rfl

/-- The last call returns. -/
theorem call_of_le (hready : program.Ready dispatcher function moment)
    (hcallee : route.callee? moment.world dispatcher = some function)
    (hlimit : (moment.world.configOf dispatcher).reachedLimit?
      (moment.world.depth dispatcher) = none) (hn : n ≤ 1) (routing : Routing)
    (allowance : ℕ) :
    ∃ after, route.call routing (run routing (allowance + 1)) dispatcher [.integer n]
        moment.world = .returned (.integer 1) after ∧
      after.site program.site =
        (moment.after (route.effects routing moment.world dispatcher)).world.site program.site := by
  obtain ⟨inner, -, hsite, hcall⟩ := hready.deeper_enter hcallee hlimit routing [.integer n]
  refine ⟨inner.world.setDepth dispatcher (moment.world.depth dispatcher), ?_, hsite⟩
  have hbody := program.eval_body_of_le routing (run routing allowance) dispatcher inner.world hn
  rw [hcall, Action.restoring, hbody]

/-- Any other call goes one call deeper, to the call for the number below. -/
theorem call_of_lt (hready : program.Ready dispatcher function moment)
    (hcallee : route.callee? moment.world dispatcher = some function)
    (hlimit : (moment.world.configOf dispatcher).reachedLimit?
      (moment.world.depth dispatcher) = none) (hn : 1 < n) (routing : Routing)
    (allowance : ℕ) :
    ∃ next, Deeper dispatcher 1 moment next ∧
      next.world.site program.site =
        (moment.after (route.effects routing moment.world dispatcher)).world.site program.site ∧
      route.call routing (run routing (allowance + 1)) dispatcher [.integer n] moment.world =
        (((Route.throughSite program.site function).call routing (run routing allowance)
          dispatcher [.integer (n - 1)]).bind
            fun rest ↦ Operator.run .mul program.product (.native (.integer n))
              (.native rest)).restoring
          (fun after ↦ after.setDepth dispatcher (moment.world.depth dispatcher))
          next.world := by
  obtain ⟨inner, hinner, hsite, hcall⟩ :=
    hready.deeper_enter hcallee hlimit routing [.integer n]
  obtain ⟨journal, hnext⟩ := (hready.deeper hinner).deeper_findOrCreate
  refine ⟨_, hinner.trans hnext, hsite, ?_⟩
  have hbody := program.eval_body_of_lt routing (run routing allowance) dispatcher inner.world hn
    (hready.deeper hinner).named
  rw [hcall, Action.restoring, hbody]
  rfl

/-- With room for all calls the function returns, and the site has seen all calls but the first. -/
theorem returns (hready : program.Ready dispatcher function moment)
    (hcallee : route.callee? moment.world dispatcher = some function)
    (hroom : ∀ limit, (moment.world.configOf dispatcher).depthLimit = some limit →
      moment.world.depth dispatcher + calls n ≤ limit)
    (routing : Routing) {allowance : ℕ} (hallowance : calls n ≤ allowance) :
    ∃ after, route.call routing (run routing allowance) dispatcher [.integer n] moment.world =
        .returned (.integer (value n)) after ∧
      after.site program.site =
        (bookkeeping routing (moment.world.siteCall dispatcher function))^[calls n - 1]
          ((moment.after (route.effects routing moment.world dispatcher)).world.site
            program.site) := by
  obtain ⟨recursions, hrecursions⟩ := exists_recursions n
  obtain ⟨allowance, rfl⟩ : ∃ fewer, allowance = fewer + 1 := ⟨allowance - 1, by omega⟩
  rw [hrecursions, Nat.add_sub_cancel]
  -- Every call begins at a moment of its own, so the moment changes along with the number.
  induction recursions generalizing n moment route allowance with
  | zero =>
    have hn : n ≤ 1 := calls_eq_one_iff.mp hrecursions
    obtain ⟨after, hcall, hsite⟩ := hready.call_of_le hcallee
      (reachedLimit?_eq_none (by omega) hroom) hn routing allowance
    refine ⟨after, ?_, hsite⟩
    rw [hcall, value_of_le hn]
  | succ recursions ih =>
    have hn : 1 < n := one_lt_calls_iff.mp (by rw [hrecursions]; omega)
    have hfewer := calls_of_lt hn
    obtain ⟨next, hnext, hsite, hcall⟩ := hready.call_of_lt hcallee
      (reachedLimit?_eq_none (by omega) hroom) hn routing allowance
    have hnextCallee : (Route.throughSite program.site function).callee? next.world dispatcher =
        some function := rfl
    have hnextRoom (limit : ℕ)
        (hlimit : (next.world.configOf dispatcher).depthLimit = some limit) :
        next.world.depth dispatcher + calls (n - 1) ≤ limit := by
      rw [hnext.config_eq] at hlimit
      have henough := hroom limit hlimit
      rw [hnext.depth_eq]
      omega
    obtain ⟨fewer, rfl⟩ : ∃ fewer, allowance = fewer + 1 := ⟨allowance - 1, by omega⟩
    obtain ⟨after, hinner, hinnerSite⟩ :=
      ih (hready.deeper hnext) hnextCallee hnextRoom (by omega) fewer (by omega)
    refine ⟨after.setDepth dispatcher (moment.world.depth dispatcher), ?_, ?_⟩
    · rw [hcall, Action.restoring, Action.bind, hinner, value_of_lt hn]
      rfl
    · refine hinnerSite.trans ?_
      rw [site_throughSite, hnext.siteCall_eq, hsite, Function.iterate_succ_apply]

/-- At the limit a call is refused. -/
theorem refused (hready : program.Ready dispatcher function moment)
    (hcallee : route.callee? moment.world dispatcher = some function) {limit : ℕ}
    (hlimit : (moment.world.configOf dispatcher).depthLimit = some limit)
    (hreached : limit ≤ moment.world.depth dispatcher) (routing : Routing) (run : Runner)
    (arguments : List Value) :
    ∃ after, route.call routing run dispatcher arguments moment.world =
      .raised (.depthExceeded limit) after := by
  obtain ⟨after, -, hcall⟩ := Route.call_at_limit hready.reachable hcallee hready.defined
    (Config.reachedLimit?_eq_some.mpr ⟨hlimit, hreached⟩) routing arguments
  exact ⟨after, hcall run⟩

/-- Without room for all calls one of them is refused, and none of those around it multiplies. -/
theorem overflows (hready : program.Ready dispatcher function moment)
    (hcallee : route.callee? moment.world dispatcher = some function) {limit : ℕ}
    (hlimit : (moment.world.configOf dispatcher).depthLimit = some limit)
    (hover : limit < moment.world.depth dispatcher + calls n)
    (routing : Routing) {allowance : ℕ} (hallowance : calls n ≤ allowance) :
    ∃ after, route.call routing (run routing allowance) dispatcher [.integer n] moment.world =
      .raised (.depthExceeded limit) after := by
  obtain ⟨recursions, hrecursions⟩ := exists_recursions n
  obtain ⟨allowance, rfl⟩ : ∃ fewer, allowance = fewer + 1 := ⟨allowance - 1, by omega⟩
  induction recursions generalizing n moment route allowance with
  | zero => exact hready.refused hcallee hlimit (by omega) routing _ _
  | succ recursions ih =>
    -- The refused call is this one or one below it.
    by_cases hreached : limit ≤ moment.world.depth dispatcher
    · exact hready.refused hcallee hlimit hreached routing _ _
    · have hn : 1 < n := one_lt_calls_iff.mp (by rw [hrecursions]; omega)
      have hfewer := calls_of_lt hn
      have hroom (other : ℕ)
          (hother : (moment.world.configOf dispatcher).depthLimit = some other) :
          moment.world.depth dispatcher + 1 ≤ other := by
        rw [hlimit, Option.some_inj] at hother
        omega
      obtain ⟨next, hnext, -, hcall⟩ := hready.call_of_lt hcallee
        (reachedLimit?_eq_none Nat.one_pos hroom) hn routing allowance
      have hnextCallee : (Route.throughSite program.site function).callee? next.world dispatcher =
          some function := rfl
      have hnextLimit : (next.world.configOf dispatcher).depthLimit = some limit := by
        rw [hnext.config_eq, hlimit]
      have hnextOver : limit < next.world.depth dispatcher + calls (n - 1) := by
        rw [hnext.depth_eq]
        omega
      obtain ⟨fewer, rfl⟩ : ∃ fewer, allowance = fewer + 1 := ⟨allowance - 1, by omega⟩
      obtain ⟨after, hinner⟩ :=
        ih (hready.deeper hnext) hnextCallee hnextLimit hnextOver (by omega) fewer (by omega)
      refine ⟨after.setDepth dispatcher (moment.world.depth dispatcher), ?_⟩
      rw [hcall, Action.restoring, Action.bind, hinner]

/-- Anything but an integer fails in the comparison. -/
theorem fails (hready : program.Ready dispatcher function moment)
    (hcallee : route.callee? moment.world dispatcher = some function)
    (hlimit : (moment.world.configOf dispatcher).reachedLimit?
      (moment.world.depth dispatcher) = none) {argument : Value}
    (hargument : argument.integer? = none) (routing : Routing) (allowance : ℕ) :
    ∃ after, route.call routing (run routing (allowance + 1)) dispatcher [argument]
        moment.world =
      .raised (Operator.typeError moment.world program.comparison
        [.native argument, .native (.integer 1)]) after := by
  obtain ⟨inner, hinner, -, hcall⟩ := hready.deeper_enter hcallee hlimit routing [argument]
  have hnames (other : FunctionId) :
      (inner.world.functionState other).name = (moment.world.functionState other).name := by
    rw [hinner.state_eq]
  have hcompare : Operator.run .le program.comparison (.native argument) (.native (.integer 1))
      inner.world = .raised (Operator.typeError moment.world program.comparison
        [.native argument, .native (.integer 1)]) inner.world := by
    rw [Operator.run, Operator.apply_eq_of_names_eq hnames]
    cases argument with
    | integer => cases hargument
    | _ => rfl
  refine ⟨inner.world.setDepth dispatcher (moment.world.depth dispatcher), ?_⟩
  have hbody := program.eval_body_of_raised routing (run routing allowance) dispatcher inner.world
    hcompare
  rw [hcall, Action.restoring, hbody]

/-- The function is ready as soon as it is registered. -/
theorem register (program : Factorial) (hreachable : moment.Reachable)
    (hdispatcher : moment.world.HasDispatcher dispatcher) :
    program.Ready dispatcher
      (moment.world.register (moment.world.dispatcher dispatcher).registry program.name
        program.definition).1
      (moment.after [.register (moment.world.dispatcher dispatcher).registry program.name
        program.definition]) := by
  have hregistry := hreachable.wellFormed dispatcher hdispatcher
  have hleads := moment.leads_after
    [.register (moment.world.dispatcher dispatcher).registry program.name program.definition]
    ⟨hregistry, trivial⟩
  have hlater := hreachable.leads hleads
  have hnamed := World.functionNamed?_register hregistry program.name program.definition
  refine ⟨hlater, hleads.extends.hasDispatcher hdispatcher, ?_, ?_⟩
  · rw [hleads.extends.home dispatcher hdispatcher]
    exact hnamed
  · refine ((hlater.followsHistory _ _ _ hnamed).definition).trans ?_
    rw [Moment.after, Moment.after, Effect.registrations_append, Effect.definition?,
      if_pos ⟨rfl, rfl⟩, Option.toList_some, List.getLast?_concat]

end Ready

/-! ## The site -/

section Site

variable (call : SiteCall) {definition : Definition}

/-- A new site remembers the function at its first call and serves all others. -/
theorem iterate_bookkeeping_of_pos (hdefined : call.callee.definition = some definition)
    (hpublished : call.callee.published = call.callee.generation) (hlimit : 0 < call.cacheLimit)
    (count : ℕ) :
    (bookkeeping .cached call)^[count + 1] {} =
      { targets := [{ function := call.function, definition
                      generation := call.callee.generation }]
        fastHits := count
        slowCalls := 1 } := by
  induction count with
  | zero =>
    simp [bookkeeping, Site.note, Site.consult, Site.target?, Site.noteSlow, hdefined, Site.learn,
      Site.countSlow, Nat.not_le.mpr hlimit]
  | succ count ih =>
    rw [Function.iterate_succ_apply', ih]
    simp [bookkeeping, Site.note, Site.consult, Site.target?, hpublished, Site.countFast]

/-- A new site that may remember nothing gives up at its first call and serves none. -/
theorem iterate_bookkeeping_of_zero (hdefined : call.callee.definition = some definition)
    (hlimit : call.cacheLimit = 0) (count : ℕ) :
    (bookkeeping .cached call)^[count + 1] {} =
      { megamorphic := true, slowCalls := count + 1 } := by
  induction count with
  | zero =>
    simp [bookkeeping, Site.note, Site.consult, Site.target?, Site.noteSlow, hdefined, Site.learn,
      Site.countSlow, hlimit]
  | succ count ih =>
    rw [Function.iterate_succ_apply', ih]
    simp [bookkeeping, Site.note, Site.consult, Site.noteSlow, hdefined, Site.learn,
      Site.countSlow]

end Site

/-! ## Calls by name -/

/-- The outcome of a call of the function by its name. -/
def outcome (program : Factorial) (dispatcher : DispatcherId) (world : World) (routing : Routing)
    (allowance : ℕ) (argument : Value) : Outcome Value :=
  Dispatch.callNamed (run routing allowance) dispatcher program.name [argument] world

/-- What calls of the function by its name give at a moment, with any allowance that is enough for
the calls it takes. -/
structure Computes (program : Factorial) (dispatcher : DispatcherId) (moment : Moment) :
    Prop where
  unlimited : (moment.world.configOf dispatcher).depthLimit = none →
    ∀ routing n allowance, calls n ≤ allowance →
      ∃ after, program.outcome dispatcher moment.world routing allowance (.integer n) =
        .returned (.integer (value n)) after
  /-- With a limit the function returns the same exactly if the limit has room for all calls. -/
  within : ∀ limit, (moment.world.configOf dispatcher).depthLimit = some limit →
    ∀ routing n allowance, calls n ≤ allowance →
      ((∃ after, program.outcome dispatcher moment.world routing allowance (.integer n) =
        .returned (.integer (value n)) after) ↔
          moment.world.depth dispatcher + max n 1 ≤ limit)
  beyond : ∀ limit, (moment.world.configOf dispatcher).depthLimit = some limit →
    ∀ routing n allowance, calls n ≤ allowance →
      ¬ moment.world.depth dispatcher + max n 1 ≤ limit →
        ∃ after, program.outcome dispatcher moment.world routing allowance (.integer n) =
          .raised (.depthExceeded limit) after
  /-- However the call ends, all depths are what they were. -/
  restored : ∀ routing allowance argument after,
    (program.outcome dispatcher moment.world routing allowance argument).world? = some after →
      ∀ other, after.depth other = moment.world.depth other
  /-- A new site that may remember a function serves all calls but the first. -/
  served : (moment.world.configOf dispatcher).depthLimit = none →
    moment.world.site program.site = {} → 1 ≤ (moment.world.configOf dispatcher).cacheLimit →
      ∀ n allowance, 2 ≤ n → calls n ≤ allowance →
        ∃ after, program.outcome dispatcher moment.world .cached allowance (.integer n) =
            .returned (.integer (value n)) after ∧
          (after.site program.site).slowCalls = 1 ∧
            (after.site program.site).fastHits = n - 2
  unserved : (moment.world.configOf dispatcher).depthLimit = none →
    moment.world.site program.site = {} → (moment.world.configOf dispatcher).cacheLimit = 0 →
      ∀ n allowance, 2 ≤ n → calls n ≤ allowance →
        ∃ after, program.outcome dispatcher moment.world .cached allowance (.integer n) =
            .returned (.integer (value n)) after ∧
          (after.site program.site).slowCalls = n - 1 ∧
            (after.site program.site).fastHits = 0
  /-- The comparison refuses every other native value, as an operation at its own location. -/
  type_error : (moment.world.configOf dispatcher).depthLimit = none →
    ∀ routing argument allowance, argument.integer? = none → 1 ≤ allowance →
      ∃ after, program.outcome dispatcher moment.world routing allowance argument =
        .raised (Operator.typeError moment.world program.comparison
          [.native argument, .native (.integer 1)]) after

namespace Ready

theorem callee?_eq (hready : program.Ready dispatcher function moment) :
    (Route.named program.name).callee? moment.world dispatcher = some function :=
  hready.named

/-- With room for all calls a new site has seen all of them but the first. -/
theorem outcome_of_new_site (hready : program.Ready dispatcher function moment)
    (hunlimited : (moment.world.configOf dispatcher).depthLimit = none)
    (hnew : moment.world.site program.site = {}) (hn : 2 ≤ n) {allowance : ℕ}
    (hallowance : calls n ≤ allowance) :
    ∃ (after : World) (recursions : ℕ),
      program.outcome dispatcher moment.world .cached allowance (.integer n) =
        .returned (.integer (value n)) after ∧
      (recursions : ℤ) = n - 2 ∧
      after.site program.site =
        (bookkeeping .cached (moment.world.siteCall dispatcher function))^[recursions + 1] {} := by
  obtain ⟨after, hcall, hsite⟩ := hready.returns hready.callee?_eq
    (by simp [hunlimited]) .cached hallowance
  have hcalls := cast_calls n
  refine ⟨after, calls n - 2, hcall, by omega, ?_⟩
  have hmore : calls n - 1 = calls n - 2 + 1 := by omega
  rw [hsite, hmore, ← hnew]
  rfl

theorem computes (hready : program.Ready dispatcher function moment) :
    program.Computes dispatcher moment where
  unlimited hunlimited routing n allowance hallowance := by
    obtain ⟨after, hcall, -⟩ := hready.returns hready.callee?_eq
      (by simp [hunlimited]) routing hallowance
    exact ⟨after, hcall⟩
  within limit hlimit routing n allowance hallowance := by
    have hcalls := cast_calls n
    constructor
    · rintro ⟨after, hreturned⟩
      by_contra hover
      obtain ⟨other, hraised⟩ := hready.overflows hready.callee?_eq hlimit (by omega) routing
        hallowance
      cases hreturned.symm.trans hraised
    · intro hroom
      obtain ⟨after, hcall, -⟩ := hready.returns hready.callee?_eq
        (fun other hother ↦ by
          rw [hlimit, Option.some_inj] at hother
          omega) routing hallowance
      exact ⟨after, hcall⟩
  beyond limit hlimit routing n allowance hallowance hover := by
    have hcalls := cast_calls n
    exact hready.overflows hready.callee?_eq hlimit (by omega) routing hallowance
  restored routing allowance argument after hafter := by
    have hagree := Route.call_agree hready.reachable hready.hasDispatcher routing allowance
      [argument] (.named program.name)
    exact (hready.reachable.ends_alike hagree hafter).2
  served hunlimited hnew hlimit n allowance hn hallowance := by
    obtain ⟨after, recursions, hcall, hrecursions, hsite⟩ :=
      hready.outcome_of_new_site hunlimited hnew hn hallowance
    have hserved := hsite.trans
      (iterate_bookkeeping_of_pos (moment.world.siteCall dispatcher function) hready.defined
        (hready.reachable.coherent.published_eq function) hlimit recursions)
    refine ⟨after, hcall, ?_⟩
    rw [hserved]
    exact ⟨rfl, hrecursions⟩
  unserved hunlimited hnew hlimit n allowance hn hallowance := by
    obtain ⟨after, recursions, hcall, hrecursions, hsite⟩ :=
      hready.outcome_of_new_site hunlimited hnew hn hallowance
    have hunserved := hsite.trans
      (iterate_bookkeeping_of_zero (moment.world.siteCall dispatcher function) hready.defined
        hlimit recursions)
    refine ⟨after, hcall, ?_⟩
    rw [hunserved]
    refine ⟨?_, rfl⟩
    change ((recursions + 1 : ℕ) : ℤ) = n - 1
    omega
  type_error hunlimited routing argument allowance hargument hallowance := by
    obtain ⟨allowance, rfl⟩ : ∃ fewer, allowance = fewer + 1 := ⟨allowance - 1, by omega⟩
    exact hready.fails hready.callee?_eq
      (reachedLimit?_eq_none Nat.one_pos (by simp [hunlimited])) hargument routing allowance

end Ready

/-- Registered at any moment of any run, and called by its name at any moment at which it is
registered, the function computes factorials exactly, and is cut exactly at the depth limit. -/
theorem factorial_exact :
    (∀ (program : Factorial) (dispatcher : DispatcherId) (moment : Moment), moment.Reachable →
      moment.world.HasDispatcher dispatcher →
        program.Ready dispatcher
          (moment.world.register (moment.world.dispatcher dispatcher).registry program.name
            program.definition).1
          (moment.after [.register (moment.world.dispatcher dispatcher).registry program.name
            program.definition])) ∧
    ∀ (program : Factorial) (dispatcher : DispatcherId) (function : FunctionId)
      (moment : Moment), program.Ready dispatcher function moment →
        program.Computes dispatcher moment :=
  ⟨fun program _ _ ↦ Ready.register program, fun _ _ _ _ ↦ Ready.computes⟩

/-- The factorial of five takes five calls, the site serves three of the four that go through it,
and a limit of four is too low for it. -/
theorem factorial_exact_five :
    let placed (operator : BinaryOperator) (column : ℕ) : Operation :=
      (Operation.ofOperator operator).located ⟨"fac.valk", 1, column⟩
    let program : Factorial :=
      { name := "fac", site := "recursion", comparison := placed .le 16
        difference := placed .sub 58, product := placed .mul 46
        location := some ⟨"fac.valk", 1, 1⟩ }
    let before (config : Config) : Moment :=
      Moment.start.after [.newRegistry config, .newDispatcher ⟨0⟩]
    let world (config : Config) : World :=
      ((before config).after [.register ⟨0⟩ "fac" program.definition]).world
    (∃ after, program.outcome ⟨0⟩ (world {}) .cached 5 (.integer 5) =
        .returned (.integer 120) after ∧
      (after.site "recursion").slowCalls = 1 ∧ (after.site "recursion").fastHits = (5 : ℤ) - 2) ∧
    ∃ after, program.outcome ⟨0⟩ (world { depthLimit := some 4 }) .cached 5 (.integer 5) =
      .raised (.depthExceeded 4) after := by
  intro placed program before world
  have hbefore (config : Config) : (before config).Reachable :=
    Moment.leads_after _ _ ⟨trivial, Nat.zero_lt_one, trivial⟩
  have hcomputes (config : Config) := factorial_exact.2 program ⟨0⟩ _ _
    (factorial_exact.1 program ⟨0⟩ (before config) (hbefore config) Nat.zero_lt_one)
  exact ⟨(hcomputes {}).served rfl rfl (by decide) 5 5 (by decide) (by decide),
    (hcomputes { depthLimit := some 4 }).beyond 4 rfl .cached 5 5 (by decide) (by decide)⟩

end Factorial

end GuestCore
