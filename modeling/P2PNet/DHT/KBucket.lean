import P2PNet.Common.Hash
import P2PNet.Lib.Lists
import P2PNet.Lib.Runs
import Mathlib.Tactic

/-! The k-bucket tree of `dht::KBucket`. A `DHTNode*` is a value of a type `ν`
with decidable equality; `getHash` is fixed, `getReliability` may differ from call to call. -/

namespace P2PNet.DHT

open Lib.Runs Lib.Lists

inductive Reliability where
  | good
  | questionable
  | bad
  deriving DecidableEq, Repr

inductive Fault where
  | readPastEnd
  deriving DecidableEq, Repr

def getBit (hash : Hash) (bitIndex : ℕ) : Except Fault Bool :=
  let splitByte := bitIndex / 8
  let splitBit := bitIndex % 8
  match hash[splitByte]? with
  | some byte => .ok ((byte.toNat >>> (7 - splitBit)) &&& 1 != 0)
  | none => .error .readPastEnd

structure Fields where
  index : ℕ
  k : ℕ
  splittable : Bool
  nodeHash : Hash
  deriving DecidableEq, Repr

def Fields.child (c : Fields) (splittable : Bool) : Fields :=
  { c with index := c.index + 1, splittable := splittable }

/-- A split bucket has both children and no contents: `split` clears the list
and `addNode` only fills buckets that are not split. -/
inductive KBucket (ν : Type) where
  | leaf (c : Fields) (contents : List ν)
  | inner (c : Fields) (first second : KBucket ν)
  deriving DecidableEq, Repr

namespace KBucket

variable {ν : Type}

def new (nodeHash : Hash) (k : ℕ) : KBucket ν :=
  .leaf ⟨0, k, true, nodeHash⟩ []

def isSplit : KBucket ν → Bool
  | .leaf .. => false
  | .inner .. => true

def determineBucket (hash : Hash) : KBucket ν → Except Fault (KBucket ν)
  | .leaf c contents => .ok (.leaf c contents)
  | .inner c first second => do
    if (← getBit hash (c.index + 1)) = false then return first else return second

/-- An `int` in the source: trees of `2 ^ 31` nodes and more are left out. -/
def count : KBucket ν → ℕ
  | .leaf _ contents => contents.length
  | .inner _ first second => first.count + second.count

variable (getHash : ν → Hash)

def distribute (c : Fields) : List ν → List ν → List ν → Except Fault (List ν × List ν)
  | [], first, second => .ok (first, second)
  | node :: nodes, first, second => do
    if (← getBit (getHash node) (c.index + 1)) = false then
      distribute c nodes (first ++ [node]) second
    else
      distribute c nodes first (second ++ [node])

/-- What `split` computes for a splittable leaf: the own hash's bit and the contents of the
children. -/
def splitContents (c : Fields) (contents : List ν) : Except Fault (Bool × List ν × List ν) := do
  let myHashBit ← getBit c.nodeHash (c.index + 1)
  let (first, second) ← distribute getHash c contents [] []
  return (myHashBit, first, second)

def split : KBucket ν → Except Fault (KBucket ν)
  | .inner c first second => .ok (.inner c first second)
  | .leaf c contents =>
    if !c.splittable then .ok (.leaf c contents)
    else do
      let (myHashBit, first, second) ← splitContents getHash c contents
      return .inner c (.leaf (c.child !myHashBit) first) (.leaf (c.child myHashBit) second)

lemma getBit_lt {hash : Hash} {i : ℕ} {b : Bool} (h : getBit hash i = .ok b) :
    i < 8 * hash.length := by
  by_contra hi
  have hb : hash.length ≤ i / 8 := by omega
  simp [getBit, List.getElem?_eq_none hb] at h

lemma splitContents_lt {c : Fields} {contents : List ν} {r : Bool × List ν × List ν}
    (h : splitContents getHash c contents = .ok r) : c.index + 1 < 8 * c.nodeHash.length := by
  obtain ⟨b, hb, _⟩ := bind_ok_iff.mp h
  exact getBit_lt hb

variable [DecidableEq ν] (getReliability : ν → Reliability)

/-- `addNode` on a bucket that is not split. The recursive call goes to a child
made by `split`, so it ends at the latest when the own hash has no further bit. -/
def addToLeaf (node : ν) (force : Bool) (c : Fields) (contents : List ν) :
    Except Fault (KBucket ν) :=
  if contents.length < c.k then .ok (.leaf c (contents ++ [node]))
  else
    let contents := removeIf (fun n => getReliability n = .bad) contents
    if node ∈ contents then .ok (.leaf c contents)
    else if contents.length ≥ c.k ∧ c.splittable = true then
      match h : splitContents getHash c contents with
      | .error e => .error e
      | .ok (myHashBit, first, second) => do
        if (← getBit (getHash node) (c.index + 1)) = false then
          return .inner c (← addToLeaf node force (c.child !myHashBit) first)
            (.leaf (c.child myHashBit) second)
        else
          return .inner c (.leaf (c.child !myHashBit) first)
            (← addToLeaf node force (c.child myHashBit) second)
    else if contents.length < c.k ∨ force = true then .ok (.leaf c (contents ++ [node]))
    else .ok (.leaf c contents)
termination_by 8 * c.nodeHash.length - c.index
decreasing_by
  all_goals
    have := splitContents_lt getHash h
    simp only [Fields.child]
    omega

def addNode (node : ν) (force : Bool) : KBucket ν → Except Fault (KBucket ν)
  | .leaf c contents => addToLeaf getHash getReliability node force c contents
  | .inner c first second => do
    if (← getBit (getHash node) (c.index + 1)) = false then
      return .inner c (← addNode node force first) second
    else
      return .inner c first (← addNode node force second)

def removeNode (node : ν) : KBucket ν → Except Fault (KBucket ν)
  | .leaf c contents => .ok (.leaf c (contents.erase node))
  | .inner c first second => do
    if (← getBit (getHash node) (c.index + 1)) = false then
      return .inner c (← removeNode node first) second
    else
      return .inner c first (← removeNode node second)

end KBucket

/-- A call on the tree. The reliabilities are those at the time of the call. -/
inductive Op (ν : Type) where
  | add (node : ν) (force : Bool) (getReliability : ν → Reliability)
  | remove (node : ν)

def Op.node {ν : Type} : Op ν → ν
  | .add node _ _ => node
  | .remove node => node

variable {ν : Type} [DecidableEq ν]

def KBucket.step (getHash : ν → Hash) (t : KBucket ν) : Op ν → Except Fault (KBucket ν)
  | .add node force getReliability => t.addNode getHash getReliability node force
  | .remove node => t.removeNode getHash node

/-- `addNode` with the default of `force`, for one node after the other. -/
def KBucket.addAll (getHash : ν → Hash) (t : KBucket ν) (calls : List (ν × (ν → Reliability))) :
    Except Fault (KBucket ν) :=
  run (KBucket.step getHash) t (calls.map fun call => .add call.1 false call.2)

end P2PNet.DHT
