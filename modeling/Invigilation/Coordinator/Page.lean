import Invigilation.Coordinator.Call

/-!
# The exam page

A page has one gate for its unload warning, and any number of calls may be under way on it. Calls
and the page's own operations on the gate interleave freely.

- `Page`, `Page.Move`, `Page.step`: the page, what can happen on it, and its effect.
-/

namespace Invigilation

/-- An exam page. -/
structure Page where
  gate : Gate
  /-- How often the page was reloaded. -/
  reloads : Nat := 0
  /-- The calls that were started, the earliest first. -/
  calls : List Call := []
  deriving DecidableEq

namespace Page

/-- What can happen on a page. -/
inductive Move where
  | evaluate (s : PageState)
  | detach
  /-- A coordinator is asked for something. -/
  | begin (coordinator : Coordinator) (task : Coordinator.Task)
  /-- A move of the call at a place. -/
  | call (place : Nat) (move : Call.Move)

/-- How many reloads there are among events. -/
def countReloads (events : List Call.Event) : Nat :=
  events.countP (· = .reloaded)

/-- One move; each event comes with the place of its call. -/
def step (p : Page) : Move → Page × List (Nat × Call.Event)
  | .evaluate s => ({ p with gate := p.gate.evaluate s }, [])
  | .detach => ({ p with gate := p.gate.detach }, [])
  | .begin coordinator task => ({ p with calls := p.calls ++ [Call.start coordinator task] }, [])
  | .call place m =>
    match p.calls[place]? with
    | none => (p, [])
    | some c =>
      let (c, gate, events) := c.step p.gate m
      (⟨gate, p.reloads + countReloads events, p.calls.set place c⟩, events.map (place, ·))

/-- A run of moves. -/
def run (p : Page) : List Move → Page × List (Nat × Call.Event)
  | [] => (p, [])
  | m :: rest =>
    let (p, events) := p.step m
    let (p, later) := p.run rest
    (p, events ++ later)

end Page

end Invigilation
