import CacheCat.Data.Text

/-! The glob matcher of KEYS. It works with indices into the pattern; an access
behind the end is a panic, written `none`. -/
namespace CacheCat.Glob

/-- The loop of `match_bracket` over the listed bytes and ranges: whether one of
them fits, and the index it stops at. It ends at `]` or at the end of the pattern. -/
def bracketLoop (pattern : Bytes) (value : UInt8) : (fuel i : Nat) → Bool → Bool × Nat
  | 0, i, matched => (matched, i)
  | fuel + 1, i, matched =>
    match pattern[i]? with
    | none => (matched, i)
    | some c =>
      if c = 93 then (matched, i)
      else
        match pattern[i + 1]?, pattern[i + 2]? with
        | some 45, some last =>
          bracketLoop pattern value fuel (i + 3) (matched || (c ≤ value && value ≤ last))
        | _, _ => bracketLoop pattern value fuel (i + 1) (matched || c = value)

/-- `match_bracket` at the index of the bracket. -/
def matchBracket (pattern : Bytes) (start : Nat) (value : UInt8) : Bool × Nat :=
  let negate := pattern[start + 1]? = some 94 || pattern[start + 1]? = some 33
  let first := if negate then start + 2 else start + 1
  let loop := bracketLoop pattern value (pattern.length + 1) first false
  (loop.1 != negate, loop.2)

/-- `match_inner`. Each call moves one of the two indices on, so the fuel that
`isMatch` starts with is not used up. -/
def matchInner (pattern value : Bytes) : (fuel pi vi : Nat) → Option Bool
  | 0, _, _ => none
  | fuel + 1, pi, vi =>
    if pi = pattern.length then some (vi = value.length)
    else
      match pattern[pi]? with
      | none => none
      | some 42 => do
          if ← matchInner pattern value fuel (pi + 1) vi then some true
          else if vi < value.length then matchInner pattern value fuel pi (vi + 1)
          else some false
      | some 63 =>
        if vi < value.length then matchInner pattern value fuel (pi + 1) (vi + 1) else some false
      | some 91 =>
        match value[vi]? with
        | none => some false
        | some c =>
          let bracket := matchBracket pattern pi c
          if bracket.1 then matchInner pattern value fuel (bracket.2 + 1) (vi + 1)
          else some false
      | some 92 =>
        match pattern[pi + 1]? with
        | none => some false
        | some escaped =>
          if value[vi]? = some escaped then matchInner pattern value fuel (pi + 2) (vi + 1)
          else some false
      | some c =>
        if value[vi]? = some c then matchInner pattern value fuel (pi + 1) (vi + 1)
        else some false

/-- `GlobMatcher::matches`. -/
def isMatch (pattern value : Bytes) : Option Bool :=
  matchInner pattern value (pattern.length + value.length + 2) 0 0

example : isMatch (bytes "h[a-cx]*o") (bytes "hbello") = some true := by decide +kernel

end CacheCat.Glob
