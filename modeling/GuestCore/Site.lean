import GuestCore.World

/-!
# Call Sites

A call site remembers the functions it has called, each with its definition at some generation.
As long as a remembered function is still at that generation its definition need not be looked up
again.  A site that meets more functions than the limit allows forgets all and stops remembering.
-/

namespace GuestCore

/-- What a site knows of a function that is about to be called. -/
inductive Recall where
  /-- The function is remembered at its current generation. -/
  | current (definition : Definition)
  /-- The function was remembered at an earlier generation. -/
  | stale (cached : Nat)
  | unknown

namespace Site

def target? (site : Site) (function : FunctionId) : Option SiteTarget :=
  site.targets.find? fun target ↦ target.function = function

/-- What the site knows of a function whose generation is given. -/
def consult (site : Site) (function : FunctionId) (generation : Nat) : Recall :=
  if site.megamorphic then .unknown
  else
    match site.target? function with
    | none => .unknown
    | some target =>
      if target.generation = generation then .current target.definition
      else .stale target.generation

def countFast (site : Site) : Site :=
  { site with fastHits := site.fastHits + 1 }

def countSlow (site : Site) : Site :=
  { site with slowCalls := site.slowCalls + 1 }

/-- The targets with the one for the same function replaced. -/
def replaceTarget (targets : List SiteTarget) (target : SiteTarget) : List SiteTarget :=
  targets.map fun known ↦ if known.function = target.function then target else known

/-- The site after a call that was not served from it, and the record of what changed.  The name
is that of the called function. -/
def learn (site : Site) (limit : Nat) (name : String) (target : SiteTarget) :
    Site × List TraceRecord :=
  if site.megamorphic then (site, [])
  else if (site.target? target.function).isSome then
    ({ site with targets := replaceTarget site.targets target },
      [.refreshedSite name target.generation])
  else if limit ≤ site.targets.length then
    ({ site with targets := [], megamorphic := true }, [.megamorphicSite name limit])
  else ({ site with targets := site.targets ++ [target] }, [])

end Site

namespace World

def debugSite (world : World) (site : Site) : String :=
  Text.record "CallSite"
    [("targets", Text.bracketed (site.targets.map fun target ↦
        Text.quoted (world.functionState target.function).name)),
      ("megamorphic", Text.truth site.megamorphic), ("fast_hits", site.fastHits.repr),
      ("slow_calls", site.slowCalls.repr)]

end World

end GuestCore
