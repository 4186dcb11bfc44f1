/-
  This file defines a scope in which every name is given out at
  most once.  A name that was given out before gets a number
  behind it, and the registry remembers for each claimed name
  the last number it tried.

  Key definitions include:
    * `Name.Registry`
    * `Name.Registry.empty`
    * `Name.Registry.has`
    * `Name.Registry.claim`
    * `Name.Registry.claimAll`
-/

namespace TypedClient

namespace Name

/-
  The names given out so far, and the last number tried for each
  claimed name.
-/
structure Registry where
  taken : List String
  counts : List (String × Nat)
deriving Repr

/- A name with a number behind it. -/
def numbered (name : String) (k : Nat) : String :=
  name ++ Nat.repr k

namespace Registry

/- The registry that has given out no name. -/
def empty : Registry :=
  ⟨[], []⟩

/- Whether a name was given out. -/
def has (r : Registry) (name : String) : Bool :=
  name ∈ r.taken

/- The last number tried for a claimed name. -/
def count (r : Registry) (name : String) : Nat :=
  (r.counts.lookup name).getD 0

/-
  The first number from `k` on that makes a free name, among the
  first `fuel` ones.
-/
def firstFree
    (taken : List String)
    (name : String) : (fuel k : Nat) → Nat
  | 0, k => k
  | fuel + 1, k =>
      if numbered name k ∈ taken then
        firstFree taken name fuel (k + 1)
      else k

/- Give out `given` for `name`, last numbered `k`. -/
def record
    (r : Registry)
    (name given : String)
    (k : Nat) : Registry :=
  ⟨given :: r.taken, (name, max k 1) :: r.counts⟩

/-
  Give out a free name for `name`.  Of as many numbers as there
  are taken names, one more than the taken ones is free.
-/
def claim (r : Registry) (name : String) : String × Registry :=
  if name ∈ r.taken then
    let k := firstFree r.taken name r.taken.length
      (r.count name + 1)
    (numbered name k, r.record name (numbered name k) k)
  else (name, r.record name name (r.count name))

/- Claim names one after another. -/
def claimAll (r : Registry) : List String → List String × Registry
  | [] => ([], r)
  | name :: names =>
      let first := r.claim name
      let others := first.2.claimAll names
      (first.1 :: others.1, others.2)

end Registry

end Name

end TypedClient
