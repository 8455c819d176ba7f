import PlatformRoutes.Platform

namespace PlatformRoutes

/-- Asks for a page by its number. -/
abbrev Fetch (σ τ α : Type) := Nat → Act σ τ (Page α)

/-- A place in a paged listing: the items of the current page still to come, and the number of the
next page if there is one. -/
structure Cursor (α : Type) where
  pending : List α
  next : Option Nat

namespace Cursor

def start : Cursor α := ⟨[], some 1⟩

def exhausted : Cursor α := ⟨[], none⟩

/-- After a page that has a successor the next number is asked for, whatever number the page itself
bears. -/
def ofPage (p : Page α) (number : Nat) : Cursor α :=
  ⟨p.items, if p.hasNext then some (number + 1) else none⟩

/-- The next item and the place after it. A page is asked for only once all items before it have
been taken. -/
def pull (fetch : Fetch σ τ α) : Nat → Cursor α → Act σ τ (Option (α × Cursor α))
  | _, ⟨x :: rest, next⟩ => pure (some (x, ⟨rest, next⟩))
  | _, ⟨[], none⟩ => pure none
  | 0, ⟨[], some _⟩ => throw .stalled
  | fuel + 1, ⟨[], some number⟩ => do
    let p ← fetch number
    pull fetch fuel (ofPage p number)

end Cursor

namespace Paging

/-- Every item of every page from the given one on, each handled before the next page is asked
for. -/
def traverse (fetch : Fetch σ τ α) (handle : α → Act σ τ β) : Nat → Nat → Act σ τ (List β)
  | 0, _ => throw .stalled
  | fuel + 1, number => do
    let p ← fetch number
    let handled ← p.items.mapM handle
    if p.hasNext then
      let rest ← traverse fetch handle fuel (number + 1)
      return handled ++ rest
    else return handled

/-- All items of a listing, in the order of its pages. -/
def collect (fetch : Fetch σ τ α) (fuel : Nat) : Act σ τ (List α) :=
  traverse fetch pure fuel 1

/-- The first item, if any; no page after the one that holds it is asked for. -/
def first (fetch : Fetch σ τ α) (fuel : Nat) : Act σ τ (Option α) := do
  return (← Cursor.start.pull fetch fuel).map (·.1)

/-- What came of taking items one by one. -/
inductive Taken (τ : Type) where
  | enough
  | ended
  | failed (f : Failure τ)

/-- Takes items from a listing until there are `count` of them, the listing ends or a page fails.
The items taken before a failure are kept. -/
def take (fetch : Fetch σ τ α) (fuel : Nat) :
    Nat → Cursor α → StateM σ (List α × Taken τ)
  | 0, _ => pure ([], .enough)
  | count + 1, cursor => do
    match ← (cursor.pull fetch fuel).run with
    | .error f => return ([], .failed f)
    | .ok none => return ([], .ended)
    | .ok (some (x, cursor)) =>
      let (xs, how) ← take fetch fuel count cursor
      return (x :: xs, how)

end Paging

namespace Run

variable {σ τ : Type} [Platform σ τ]

def pagesOf (resource : Resource) (filters : Filters) : Fetch (World σ τ) τ resource.Item :=
  fun number => listResources resource filters number

/-- Lists anew from the first page on; nothing is kept from one listing to the next. -/
def listAll (resource : Resource) (filters : Filters) : Run σ τ (List resource.Item) := do
  Paging.collect (pagesOf resource filters) (← get).patience

def listFirst (resource : Resource) (filters : Filters) : Run σ τ (Option resource.Item) := do
  Paging.first (pagesOf resource filters) (← get).patience

end Run

end PlatformRoutes
