import HeatingControl.Dashboard.Section

/-!
# The refresh timer

A refresh is due at every multiple of the period. The list of the zones takes a while to come;
a refresh that waits for it stays pending, and those that are due meanwhile are dropped.
-/
namespace HeatingControl.Dashboard

/-- A timer that has been running for a while. Instants are in milliseconds. -/
structure TimerRun (σ : Type) where
  world : σ × Memory
  /-- The refresh that waits for the zones, and when they come. -/
  pending : Option (Nat × Task Bool)
  fetches : List Nat

def Effect.isFetch : Effect → Bool
  | .ask .getZones => true
  | _ => false

namespace TimerRun

variable {σ : Type}

def start (world : σ × Memory) : TimerRun σ := ⟨world, none, []⟩

/-- Finishes the pending refresh if its zones have come. -/
def settle (api : Behaviour σ) (hasCome : Nat → Bool) (r : TimerRun σ) : TimerRun σ :=
  match r.pending with
  | none => r
  | some (due, task) =>
    if hasCome due then { r with world := (task.runWith api r.world).2, pending := none } else r

def fire (api : Behaviour σ) (delay now : Nat) (r : TimerRun σ) : TimerRun σ :=
  let r := r.settle api (· ≤ now)
  match tick.runUntil Effect.isFetch (Effect.answer api) r.world with
  | (.done _, world) => { r with world }
  | (task, world) => ⟨world, some (now + delay, task), r.fetches ++ [now]⟩

def dueBefore (period horizon : Nat) : List Nat :=
  (List.range ((horizon - 1) / period)).map fun k => (k + 1) * period

def run (api : Behaviour σ) (period delay horizon : Nat) (world : σ × Memory) : TimerRun σ :=
  ((dueBefore period horizon).foldl (fun r now => r.fire api delay now) (start world)).settle api
    (· < horizon)

end TimerRun
end HeatingControl.Dashboard
