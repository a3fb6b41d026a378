import PhpLint.Text.Basic

/-!
File paths. A path keeps its spelling for display; two paths are the same, and
are ordered, by their components, so that doubled separators, inner dots and a
separator at the end do not count.
-/

namespace PhpLint

/-- A component of a path. The order of the constructors is the order of paths. -/
inductive PathComponent where
  | root
  | current
  | parent
  | name (name : Text)
  deriving DecidableEq, Repr

namespace PathComponent

/-- How a component is spelled after a separator. -/
def spelling : PathComponent → Text
  | .root => []
  | .current => ['.']
  | .parent => ['.', '.']
  | .name n => n

/-- The place of the kind of a component in the order of paths. -/
def rank : PathComponent → Nat
  | .root => 0
  | .current => 1
  | .parent => 2
  | .name _ => 3

instance : Hashable PathComponent where
  hash c := mixHash (hash c.rank) (hash (String.ofList c.spelling))

/-- Orders components by kind and names by their characters. -/
def compare (a b : PathComponent) : Ordering :=
  (Ord.compare a.rank b.rank).then (Ord.compare a.spelling b.spelling)

end PathComponent

/-- A path as it is spelled. -/
structure Path where
  spelling : Text
  deriving DecidableEq, Repr, Inhabited

namespace Path

def ofString (s : String) : Path := ⟨s.toList⟩

def display (p : Path) : String := String.ofList p.spelling

/-- A segment between separators that is no component. -/
def isIdle (segment : Text) : Bool := segment.isEmpty || segment == ['.']

/-- The component that a segment after the first one stands for. -/
def segmentComponent? (segment : Text) : Option PathComponent :=
  if isIdle segment then none
  else if segment = ['.', '.'] then some .parent
  else some (.name segment)

/-- The pieces of the spelling between separators. -/
def segments (p : Path) : List Text := Text.splitAtChar '/' p.spelling

def isAbsolute (p : Path) : Bool := p.spelling.head? == some '/'

/-- The first component, where a separator is the root and a dot counts, and the
segments after it. -/
def splitLead (p : Path) : Option PathComponent × List Text :=
  match p.segments with
  | [] => (none, [])
  | [[]] => (none, [])
  | [] :: rest => (some .root, rest)
  | ['.'] :: rest => (some .current, rest)
  | segments => (none, segments)

/-- The components of a path. -/
def components (p : Path) : List PathComponent :=
  let (lead, segments) := p.splitLead
  lead.toList ++ segments.filterMap segmentComponent?

/-- Whether two paths have the same components. -/
def same (p q : Path) : Bool := p.components == q.components

/-- The name of the last component. -/
def fileName? (p : Path) : Option Text :=
  match p.components.getLast? with
  | some (.name n) => some n
  | _ => none

/-- What follows the last dot of the last name, unless the name starts with it. -/
def extension? (p : Path) : Option Text := do
  let name ← p.fileName?
  let extension := (name.reverse.takeWhile (· != '.')).reverse
  if name.length ≤ extension.length + 1 then none else some extension

/-- Orders lists of components like words. -/
def compareComponents : List PathComponent → List PathComponent → Ordering
  | [], [] => .eq
  | [], _ :: _ => .lt
  | _ :: _, [] => .gt
  | a :: as, b :: bs => (a.compare b).then (compareComponents as bs)

/-- Orders paths by their components. -/
def compare (p q : Path) : Ordering := compareComponents p.components q.components

/-- Joins segments with separators. -/
def ofSegments (segments : List Text) : Path := ⟨Text.join ['/'] segments⟩

/-- Drops segments without meaning at both ends. -/
def trimSegments (segments : List Text) : List Text :=
  ((segments.dropWhile isIdle).reverse.dropWhile isIdle).reverse

/-- Drops a number of components from the start of segments. -/
def dropSegments : Nat → List Text → List Text
  | 0, segments => segments
  | _ + 1, [] => []
  | n + 1, segment :: rest =>
    if isIdle segment then dropSegments (n + 1) rest else dropSegments n rest

/-- Drops segments without meaning at the end. -/
def dropIdleEnd (segments : List Text) : List Text := (segments.reverse.dropWhile isIdle).reverse

/-- The path with a lead and segments behind it. -/
def withLead (lead : Option PathComponent) (segments : List Text) : Path :=
  match lead with
  | none => ofSegments segments
  | some lead =>
    if segments.isEmpty then ⟨if lead = .root then ['/'] else ['.']⟩
    else ofSegments (lead.spelling :: segments)

/-- The path without segments of no meaning at its end; a lead stays. -/
def trimEnd (p : Path) : Path :=
  let (lead, segments) := p.splitLead
  withLead lead (dropIdleEnd segments)

/-- The path without its last component. The root and the empty path have none. -/
def parent? (p : Path) : Option Path :=
  let (lead, segments) := p.splitLead
  match (dropIdleEnd segments).reverse, lead with
  | _ :: front, lead => some (withLead lead (dropIdleEnd front.reverse))
  | [], some .current => some ⟨[]⟩
  | [], _ => none

/-- The parent, its parent and so on, at most a given number of them. -/
def parentsUpTo : Nat → Path → List Path
  | 0, _ => []
  | n + 1, p =>
    match p.parent? with
    | some q => q :: parentsUpTo n q
    | none => []

/-- All paths that a path lies in, the nearest first. -/
def parents (p : Path) : List Path := parentsUpTo p.components.length p

/-- The spelling that is left of a path after a number of its components. -/
def dropComponents (p : Path) (n : Nat) : Path :=
  if n = 0 then p.trimEnd
  else
    let (lead, segments) := p.splitLead
    let n := if lead.isSome then n - 1 else n
    ofSegments (trimSegments (dropSegments n segments))

/-- The length of the longest common start of two lists. -/
def commonLength : List PathComponent → List PathComponent → Nat
  | a :: as, b :: bs => if a = b then commonLength as bs + 1 else 0
  | _, _ => 0

/-- Whether a path is another one or lies in it. -/
def isWithin (p base : Path) : Bool := base.components.isPrefixOf p.components

/-- What is left of a path below another one. -/
def below? (p base : Path) : Option Path :=
  if p.isWithin base then some (p.dropComponents base.components.length) else none

/-- Expresses a path relative to a root. A path outside the root climbs out of it
from the longest common start; without any common start it stays as it is. -/
def relativeTo (p base : Path) : Path :=
  match p.below? base with
  | some rest => rest
  | none =>
    let ps := p.components
    let bs := base.components
    let common := commonLength ps bs
    if common = 0 then p
    else
      ofSegments (List.replicate (bs.length - common) ['.', '.'] ++
        (ps.drop common).map PathComponent.spelling)

/-- Appends a path; an absolute one replaces what is there. -/
def join (p q : Path) : Path :=
  if q.isAbsolute || p.spelling.isEmpty then q
  else if p.spelling.getLast? == some '/' then ⟨p.spelling ++ q.spelling⟩
  else ⟨p.spelling ++ '/' :: q.spelling⟩

end Path

end PhpLint
