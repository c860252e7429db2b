import Passbook.Account.Attempt

/-!
# Branches

A *branch* holds several accounts. Their times come from clocks of their own,
or from one clock on the wall that they have in common. The state of an
account, with its own clock, can be saved and restored; a clock in common is
not turned back by that.

* `Branch.request`: a request to one of the accounts;
* `Branch.save`, `Branch.restore`: a stack of saved states for each account.
-/

namespace Passbook

/-- An account at a branch, with its own clock and its saved states. -/
structure Holding where
  account : Account
  clock : Clock
  /-- The saved states, last one first. -/
  saved : List (Account × Clock)

/-- Accounts under one roof. A place is empty if no account could be opened
    there. -/
structure Branch where
  /-- The clock that the accounts have in common, if they do. -/
  common : Option Clock
  places : List (Option Holding)

namespace Branch

variable (b : Branch)

/-- The account at a place. -/
def at? (i : Nat) : Option Holding := b.places[i]?.join

/-- The clock that an account reads. -/
def clockOf (h : Holding) : Clock := b.common.getD h.clock

/-- Takes a place for a new account. -/
def take (place : Option (Account × Clock)) : Branch :=
  { b with places := b.places ++ [place.map fun (a, clock) => ⟨a, clock, []⟩] }

/-- Changes what is at a place. -/
def put (i : Nat) (h : Holding) : Branch := { b with places := b.places.set i (some h) }

/-- The branch after an account has read its clock. -/
def setClock (i : Nat) (h : Holding) (clock : Clock) : Branch :=
  match b.common with
  | some _ => { b.put i h with common := some clock }
  | none => b.put i { h with clock }

/-- A request to the account at a place. -/
def request (i : Nat) (r : Request) : Option (Attempt × Branch) :=
  (b.at? i).map fun h =>
    let t := h.account.request (b.clockOf h) r
    (t, b.setClock i { h with account := t.account } t.clock)

/-- Saves the state of an account; the number of its saved states. -/
def save (i : Nat) : Option (Nat × Branch) :=
  (b.at? i).map fun h =>
    let saved := (h.account, h.clock) :: h.saved
    (saved.length, b.put i { h with saved })

/-- Restores the state of an account that was saved last; the number of
    states that are left, or `none` if nothing was saved. -/
def restore (i : Nat) : Option (Nat × Branch) := do
  let h ← b.at? i
  match h.saved with
  | [] => none
  | (account, clock) :: saved => return (saved.length, b.put i ⟨account, clock, saved⟩)

end Branch

end Passbook
