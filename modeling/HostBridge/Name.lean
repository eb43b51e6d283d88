import HostBridge.Text.LetterCase

/-!
# Exposed names

A host item is exported under a name that is derived from its declared one: the
last segment of the qualified name, without type arguments, in snake case.  A
closure has no name of its own, so an unnamed closure is called after the item
that it is defined in, with the least number that is still free.

All functions work on lists of characters; `Name.exposed` and `Name.derive` are
the ones that the rest of the library calls.
-/

namespace HostBridge.Name

/-- Everything but the first character: an upper case character becomes an
underscore and its lower case form. -/
def snakeTail : List Char → List Char
  | [] => []
  | char :: rest =>
    if isUpperCase char then '_' :: lowerCase char ++ snakeTail rest
    else char :: snakeTail rest

/-- Snake case: an underscore before every upper case character except at the
start, and all of them in lower case.  Other characters are kept. -/
def snakeChars : List Char → List Char
  | [] => []
  | char :: rest =>
    if isUpperCase char then lowerCase char ++ snakeTail rest
    else char :: snakeTail rest

/-- Snake case of a name. -/
def snake (name : String) : String := String.ofList (snakeChars name.toList)

/-- Drop the pairs of colons at the front. -/
def dropColons : List Char → List Char
  | ':' :: ':' :: rest => dropColons rest
  | text => text

/-- What comes before the first pair of colons. -/
def uptoColons : List Char → List Char
  | ':' :: ':' :: _ => []
  | char :: rest => char :: uptoColons rest
  | [] => []

/-- The mark that stands for a closure in a qualified name. -/
def closureMark : List Char := "\x7b\x7bclosure\x7d\x7d".toList

/--
The last segment of a qualified name: type arguments are cut off at the first
`<`, separators at the end are dropped, and dots separate like `::`.  The name
is read from its end, which settles where a separator in `:::` lies.
-/
def lastSegment (qualified : List Char) : List Char :=
  let fromEnd := (qualified.takeWhile (· != '<')).reverse
  let segment := ((uptoColons (dropColons fromEnd)).takeWhile (· != '.')).reverse
  if segment = closureMark then "closure".toList else segment

/-- Drop one closure mark and its separator from a reversed name. -/
def dropClosure? (reversed : List Char) : Option (List Char) :=
  let mark := closureMark.reverse ++ [':', ':']
  if mark.isPrefixOf reversed then some (reversed.drop mark.length) else none

/-- Drop all closure marks from a reversed name. -/
def dropClosures : Nat → List Char → List Char
  | 0, reversed => reversed
  | fuel + 1, reversed =>
    match dropClosure? reversed with
    | some rest => dropClosures fuel rest
    | none => reversed

/-- The item that a closure is defined in, if the name is that of a closure. -/
def closureOwner? (qualified : List Char) : Option (List Char) :=
  match dropClosure? qualified.reverse with
  | none => none
  | some rest =>
    let owner := lastSegment (dropClosures rest.length rest).reverse
    if owner.isEmpty then none else some owner

/-- The exposed name of a declared item. -/
def exposed (declared : String) : String :=
  String.ofList (snakeChars (lastSegment declared.toList))

/-- The names that an unnamed closure is offered, in order. -/
def candidate (base : String) (number : Nat) : String := base ++ "_" ++ Nat.repr number

/-- The first candidate, from `number` on, that is not taken; `attempts` bounds
the search. -/
def firstFree (taken : String → Bool) (base : String) : (attempts number : Nat) → String
  | 0, number => candidate base number
  | attempts + 1, number =>
    if taken (candidate base number) then firstFree taken base attempts (number + 1)
    else candidate base number

/-- What the numbered names of an unnamed closure begin with. -/
def closureBase? (declared : String) : Option String :=
  match closureOwner? declared.toList with
  | some owner => some (String.ofList (snakeChars owner) ++ "_closure")
  | none =>
    if closureMark.reverse.isPrefixOf declared.toList.reverse then some "closure" else none

/--
The name under which an item is exported: from the given name, or from the
declared one if none is given.  Among `names.length + 1` candidates one is not
in `names`, so the search for a free one succeeds.
-/
def derive (given declared : String) (names : List String) : String :=
  if given ≠ "" then exposed given
  else
    match closureBase? declared with
    | some base => firstFree names.contains base names.length 0
    | none => exposed declared

end HostBridge.Name
