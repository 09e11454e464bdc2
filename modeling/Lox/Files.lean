import Lox.Text.Utf8

/-! Files and folders.
A path is a list of steps from folder to folder, and the place it leads to is known by the steps
that remain when the ones that lead back are taken off. Where nothing was put nothing is.
-/

namespace Lox

/-- A path without its empty and idle steps. -/
structure Path where
  /-- The slashes in front: none, one, or exactly two. -/
  slashes : Nat
  steps : List String
deriving DecidableEq

namespace Path

/-- The path that a text writes. -/
def ofString (text : String) : Path :=
  let characters := text.toList
  let leading := (characters.takeWhile (· = '/')).length
  let steps := (characters.splitOn '/').map String.ofList
  { slashes := if leading = 0 then 0 else if leading = 2 then 2 else 1
    steps := steps.filter fun step => step != "" && step != "." }

def text (path : Path) : String :=
  if path.slashes = 0 ∧ path.steps = [] then "."
  else String.ofList (List.replicate path.slashes '/') ++ "/".intercalate path.steps

/-- The path with a suffix on its last step. -/
def addSuffix (path : Path) (suffix : String) : Path :=
  match path.steps.getLast? with
  | some last => { path with steps := path.steps.dropLast ++ [last ++ suffix] }
  | none => path

end Path

/-- What stands at a place. -/
inductive Entry where
  | file (bytes : List UInt8)
  | folder
deriving DecidableEq

/-- A folder from which places are told. -/
inductive Origin where
  | root
  /-- The working folder, or the one so many levels above it. -/
  | working (levels : Nat)
deriving DecidableEq

/-- A place, by the steps to it, none of which leads back. -/
structure Place where
  origin : Origin
  steps : List String
deriving DecidableEq

namespace Place

/-- The place one step further. The root is its own outer folder. -/
def step (place : Place) (step : String) : Place :=
  if step = ".." then
    match place.origin, place.steps with
    | .root, [] => place
    | .working levels, [] => ⟨.working (levels + 1), []⟩
    | origin, steps => ⟨origin, steps.dropLast⟩
  else ⟨place.origin, place.steps ++ [step]⟩

/-- The place where a path begins. -/
def start (path : Path) : Place :=
  ⟨if path.slashes = 0 then .working 0 else .root, []⟩

/-- The path to a place. -/
def path (place : Place) : Path :=
  match place.origin with
  | .root => ⟨1, place.steps⟩
  | .working levels => ⟨0, List.replicate levels ".." ++ place.steps⟩

/-- The place lies in the folder `outer` or in a folder inside it. -/
def isWithin (place outer : Place) : Bool :=
  place.origin = outer.origin && outer.steps.isPrefixOf place.steps

end Place

/-- Files and folders by their places. The folders around them need no entry of their own. -/
structure Files where
  entries : List (Place × Entry)

namespace Files

/-- What stands at a place. The folders from which places are told always exist. -/
def entryAt (files : Files) (place : Place) : Option Entry :=
  if place.steps = [] then some .folder
  else
    match files.entries.lookup place with
    | some entry => some entry
    | none => if files.entries.any (·.1.isWithin place) then some .folder else none

/-- One step from a folder; no step leads on from anything else. -/
def walk (files : Files) (place : Place) (step : String) : Option Place :=
  if files.entryAt place = some .folder then some (place.step step) else none

/-- The place at the end of a path, if there is a way to it. -/
def placeOf (files : Files) (path : Path) : Option Place :=
  path.steps.foldlM files.walk (.start path)

/-- What stands at the end of a path. -/
def find? (files : Files) (path : Path) : Option Entry :=
  (files.placeOf path).bind files.entryAt

/-- The entries with one more at the end, or with another at the same place. -/
def putEntry (place : Place) (entry : Entry) : List (Place × Entry) → List (Place × Entry)
  | [] => [(place, entry)]
  | first :: rest =>
      if first.1 = place then (place, entry) :: rest else first :: putEntry place entry rest

/-- The files with an entry at the end of a path, with or without folders on the way to it. -/
def put (files : Files) (path : Path) (entry : Entry) : Files :=
  ⟨putEntry (path.steps.foldl Place.step (.start path)) entry files.entries⟩

/-- The files with a text written at the end of a path. That is impossible where a folder stands and
where no way leads to.
-/
def write? (files : Files) (path : Path) (text : String) : Option Files :=
  match files.placeOf path with
  | some place =>
      if files.entryAt place = some .folder then none
      else some ⟨putEntry place (.file (Text.Utf8.encode text)) files.entries⟩
  | none => none

/-- The entries at places where nothing stood earlier. -/
def createdSince (files earlier : Files) : List (Place × Entry) :=
  files.entries.filter fun entry => (earlier.entries.lookup entry.1).isNone

/-- The entries that are not as they were earlier. -/
def changedSince (files earlier : Files) : List (Place × Entry) :=
  files.entries.filter fun entry => earlier.entries.lookup entry.1 != some entry.2

end Files

end Lox
