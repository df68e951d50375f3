import StyleSplice.Text.Basic

/-!
# Network addresses

The written forms of IP addresses: four decimal octets, or eight groups of hexadecimal digits of
which one run of zeros may be left out.
-/

namespace StyleSplice

/-- A decimal octet, without leading zeros. -/
def isOctet (s : Text) : Bool :=
  !s.isEmpty && s.all Char.isDigit && s.length ≤ 3 && (s.length = 1 || s.head? != some '0') &&
    s.foldl (fun n c => n * 10 + (c.toNat - 48)) 0 ≤ 255

/-- An address of four octets with dots between them. -/
def isIPv4 (s : Text) : Bool :=
  let parts := s.splitOn '.'
  parts.length = 4 && parts.all isOctet

/-- One to four hexadecimal digits. -/
def isHexGroup (s : Text) : Bool :=
  !s.isEmpty && s.length ≤ 4 &&
    s.all fun c => c.isDigit || ('a' ≤ c && c ≤ 'f') || ('A' ≤ c && c ≤ 'F')

/-- The positions of the empty groups, the first and the last group left out. -/
def innerGaps (groups : List Text) : List Nat :=
  (List.range groups.length).filter fun i =>
    0 < i && i + 1 < groups.length && (groups[i]?.getD []).isEmpty

/-- Whether the groups between colons make up an address. An empty group stands for a run of zeros;
at either end it must belong to that run. -/
def isGroupList (groups : List Text) : Bool :=
  let empty := fun (g : Option Text) => (g.getD []).isEmpty
  match innerGaps groups with
  | [] => groups.length = 8 && groups.all isHexGroup
  | [gap] =>
    let high := groups.take gap
    let low := groups.drop (gap + 1)
    let high' := if empty high.head? then high.drop 1 else high
    let low' := if empty low.getLast? then low.dropLast else low
    (!empty high.head? || high'.isEmpty) && (!empty low.getLast? || low'.isEmpty) &&
      high'.length + low'.length < 8 && high'.all isHexGroup && low'.all isHexGroup
  | _ => false

/-- The address without its scope, which follows a percent sign; none if the scope is empty or has
a percent sign itself. -/
def withoutScope? (s : Text) : Option Text :=
  match Text.cutAt (· == '%') s with
  | none => some s
  | some (address, scope) => if scope.isEmpty || scope.contains '%' then none else some address

/-- An address of groups between colons. The last two groups may be written as four octets. -/
def isIPv6 (s : Text) : Bool :=
  !s.contains '/' &&
    match withoutScope? s with
    | none => false
    | some address =>
      let groups := address.splitOn ':'
      let last := groups.getLast?.getD []
      3 ≤ groups.length &&
        if last.contains '.' then
          isIPv4 last && groups.length ≤ 8 &&
            isGroupList (groups.dropLast ++ ["0".toList, "0".toList])
        else groups.length ≤ 9 && isGroupList groups

end StyleSplice
