import CacheCat.Data.Text
import Mathlib.Data.Finmap

/-! The sorted set: a tree of (score, member) pairs and a hash from members to
scores, which every operation updates side by side. The tree is the list of its
pairs in the order it keeps. -/
namespace CacheCat

/-- The order of `OrderedFloat`: NaN is equal to itself and above everything. -/
def orderedLt (a b : Float) : Bool :=
  !a.isNaN && (b.isNaN || a < b)

/-- The order of the pairs in the tree. -/
def pairLt (a b : Float × Bytes) : Bool :=
  orderedLt a.1 b.1 || (!orderedLt b.1 a.1 && decide (a.2 < b.2))

structure SortedSet where
  tree : List (Float × Bytes)
  hash : Finmap fun _ : Bytes => Float
deriving DecidableEq

/-- The flags and members of a ZADD. -/
structure ZAddArgs where
  members : List (Bytes × Float)
  nx : Bool
  xx : Bool
  gt : Bool
  lt : Bool
  ch : Bool
deriving DecidableEq

namespace SortedSet

def new : SortedSet := ⟨[], ∅⟩

/-- `BTreeSet::insert`: an element that compares equal stays. -/
def treeInsert (pair : Float × Bytes) : List (Float × Bytes) → List (Float × Bytes)
  | [] => [pair]
  | head :: rest =>
    if pairLt pair head then pair :: head :: rest
    else if pairLt head pair then head :: treeInsert pair rest
    else head :: rest

/-- `BTreeSet::remove` of the element that compares equal. -/
def treeRemove (pair : Float × Bytes) (tree : List (Float × Bytes)) : List (Float × Bytes) :=
  tree.filter fun other => pairLt pair other || pairLt other pair

/-- The body of the loop of `zadd`, with the counters `added` and `changed`. -/
def zaddMember (args : ZAddArgs) (state : SortedSet × Nat × Nat) (item : Bytes × Float) :
    SortedSet × Nat × Nat :=
  let (zset, added, changed) := state
  let (member, score) := item
  match zset.hash.lookup member with
  | some oldScore =>
    if args.nx then state
    else if args.gt && score ≤ oldScore then state
    else if args.lt && oldScore ≤ score then state
    else if oldScore != score then
      let tree := treeInsert (score, member) (treeRemove (oldScore, member) zset.tree)
      (⟨tree, zset.hash.insert member score⟩, added, changed + 1)
    else state
  | none =>
    if args.xx then state
    else
      let tree := treeInsert (score, member) zset.tree
      (⟨tree, zset.hash.insert member score⟩, added + 1, changed + 1)

/-- The set afterwards and the number replied. -/
def zadd (zset : SortedSet) (args : ZAddArgs) : SortedSet × Nat :=
  let (zset, added, changed) := args.members.foldl (zaddMember args) (zset, 0, 0)
  (zset, if args.ch then changed else added)

/-- The elements between two ranks, both included, counted from the end when
negative. -/
def zrange (zset : SortedSet) (start stop : Int) : List (Bytes × Float) :=
  let len : Int := zset.tree.length
  let startIdx := if start < 0 then len + start else start
  let stopIdx := if stop < 0 then len + stop else stop
  let startIdx := if startIdx < 0 then 0 else startIdx
  let stopIdx := if len ≤ stopIdx then len - 1 else stopIdx
  if len = 0 || stopIdx < 0 || len ≤ startIdx || stopIdx < startIdx then []
  else
    ((zset.tree.drop startIdx.toNat).take (stopIdx - startIdx + 1).toNat).map
      fun (score, member) => (member, score)

def len (zset : SortedSet) : Nat := zset.hash.keys.card

def isEmpty (zset : SortedSet) : Bool := zset.len = 0

def zcount (zset : SortedSet) (min max : Float) (minExclusive maxExclusive : Bool) : Nat :=
  if zset.tree.isEmpty || max < min then 0
  else
    zset.tree.countP fun (score, _) =>
      (if minExclusive then decide (min < score) else decide (min ≤ score)) &&
        (if maxExclusive then decide (score < max) else decide (score ≤ max))

/-- `limit` is `Some((offset, count))`. -/
def zrangebyscore (zset : SortedSet) (min max : Float) (limit : Option (Nat × Nat)) :
    List (Bytes × Float) :=
  let skipped := limit.elim 0 Prod.fst
  let taken := limit.elim (2 ^ 64 - 1) Prod.snd
  if zset.tree.isEmpty || max < min || taken = 0 then []
  else
    -- the range from `(min, "")` on
    let found := (zset.tree.dropWhile fun pair => pairLt pair (min, [])).takeWhile
      fun (score, _) => score ≤ max
    ((found.drop skipped).take taken).map fun (score, member) => (member, score)

/-- One round of the loop of `zrem`. -/
def zremMember (state : SortedSet × Nat) (member : Bytes) : SortedSet × Nat :=
  let (zset, removed) := state
  match zset.hash.lookup member with
  | some score => (⟨treeRemove (score, member) zset.tree, zset.hash.erase member⟩, removed + 1)
  | none => state

def zrem (zset : SortedSet) (members : List Bytes) : SortedSet × Nat :=
  members.foldl zremMember (zset, 0)

/-- `none` refuses a NaN score and changes nothing. -/
def zincrby (zset : SortedSet) (member : Bytes) (increment : Float) : Option (SortedSet × Float) :=
  let oldScore := zset.hash.lookup member
  let newScore := oldScore.getD 0 + increment
  if newScore.isNaN then none
  else
    match oldScore with
    | some old =>
      if old == newScore then some (zset, newScore)
      else
        let tree := treeInsert (newScore, member) (treeRemove (old, member) zset.tree)
        some (⟨tree, zset.hash.insert member newScore⟩, newScore)
    | none =>
      some (⟨treeInsert (newScore, member) zset.tree, zset.hash.insert member newScore⟩, newScore)

def zscore (zset : SortedSet) (member : Bytes) : Option Float := zset.hash.lookup member

/-- The position of a member in a listing of the tree. -/
def position (zset : SortedSet) (listing : List (Float × Bytes)) (member : Bytes) : Option Nat := do
  let score ← zset.hash.lookup member
  listing.findIdx? fun pair => !pairLt pair (score, member) && !pairLt (score, member) pair

def zrank (zset : SortedSet) (member : Bytes) : Option Nat := zset.position zset.tree member

def zrevrank (zset : SortedSet) (member : Bytes) : Option Nat :=
  zset.position zset.tree.reverse member

/-- `pop_first` as often as asked, at most until the tree is empty. -/
def zpopMin (zset : SortedSet) (count : Option Nat) : SortedSet × List (Bytes × Float) :=
  let popped := zset.tree.take (count.getD 1)
  let hash := popped.foldl (fun hash (_, member) => hash.erase member) zset.hash
  (⟨zset.tree.drop (count.getD 1), hash⟩, popped.map fun (score, member) => (member, score))

end SortedSet
end CacheCat
