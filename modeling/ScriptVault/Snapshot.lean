import ScriptVault.Rules
import ScriptVault.Table
import ScriptVault.Vault.Basic

/-!
# Snapshot — the files as the loader knows them

Every time a file is looked at it gets a fresh identity.  What is derived from a file is kept under the
identity's token, which holds only as long as the identity is the current one of its path.  Each change of
a current identity gives a notice.
-/

namespace ScriptVault

/-- One version of a file. -/
structure Identity where
  /-- Its number; no other version has it. -/
  token : Nat
  /-- The path of the file. -/
  path : String
  /-- The text, where the rules ask for it. -/
  content : Option String
  deriving DecidableEq, Repr

/-- A change of the current identity of a path. -/
structure Notice where
  /-- The path. -/
  path : String
  /-- The identity before. -/
  previous : Option Identity
  /-- The identity after. -/
  current : Option Identity
  deriving DecidableEq, Repr

/-- The current identities of all known files. -/
structure Snapshot where
  /-- Which files are read ahead of time. -/
  rules : Rules := []
  /-- The current identity of each path. -/
  entries : Table String Identity := []
  /-- The tokens of the current identities. -/
  current : List Nat := []
  /-- The next token; all tokens so far are below it. -/
  nextToken : Nat := 0

namespace Snapshot

/-- The current identity of a path. -/
def get? (s : Snapshot) (path : String) : Option Identity := s.entries.at? path

/-- A token is that of a current identity. -/
def isCurrent (s : Snapshot) (token : Nat) : Bool := s.current.contains token

/-- The tokens without that of an identity that goes. -/
def retire (s : Snapshot) : Option Identity → List Nat
  | some previous => s.current.filter (· ≠ previous.token)
  | none => s.current

/-- The known paths. -/
def paths (s : Snapshot) : List String := Names.ofList s.entries.keys

/-- Gives a path a fresh identity.  A file that the rules ask for must be readable; when it is not,
nothing changes. -/
def cache (s : Snapshot) (vault : Vault) (path : String) : Except Failure (Identity × Notice × Snapshot) := do
  let content ← if s.rules.selects path then (vault.read path).map some else .ok none
  let identity : Identity := ⟨s.nextToken, path, content⟩
  return (identity, ⟨path, s.get? path, some identity⟩,
    { s with
      entries := s.entries.put path identity
      current := (s.retire (s.get? path)).insert identity.token
      nextToken := s.nextToken + 1 })

/-- Gives a path a fresh identity if its file can be read. -/
def tryCache (s : Snapshot) (vault : Vault) (path : String) : List Notice × Snapshot :=
  match s.cache vault path with
  | .ok (_, notice, s) => ([notice], s)
  | .error _ => ([], s)

/-- Forgets a path. -/
def uncache (s : Snapshot) (path : String) : List Notice × Snapshot :=
  match s.get? path with
  | some previous =>
    ([⟨path, some previous, none⟩],
      { s with entries := s.entries.erase path, current := s.retire (some previous) })
  | none => ([], s)

/-- Does one thing for each path in turn, and collects the notices. -/
def forEach (step : Snapshot → String → List Notice × Snapshot) :
    List String → Snapshot → List Notice × Snapshot
  | [], s => ([], s)
  | path :: rest, s =>
    let (first, s) := step s path
    let (more, s) := forEach step rest s
    (first ++ more, s)

/-- Looks at all files anew and forgets those that are gone. -/
def rebuild (s : Snapshot) (vault : Vault) : List Notice × Snapshot :=
  let files := vault.files
  let (gone, s) := forEach uncache (s.paths.filter (!files.contains ·)) s
  let (seen, s) := forEach (fun s path => s.tryCache vault path) files s
  (gone ++ seen, s)

/-- Looks at all files anew under other rules. -/
def setRules (s : Snapshot) (vault : Vault) (rules : Rules) : List Notice × Snapshot :=
  rebuild { s with rules := rules } vault

/-- Looks at a path that may have changed. -/
def look (s : Snapshot) (vault : Vault) (path : String) : List Notice × Snapshot :=
  if vault.isFile path then s.tryCache vault path else ([], s)

/-- Follows a change of the files. -/
def follow (s : Snapshot) (vault : Vault) : Change → List Notice × Snapshot
  | .created path => s.look vault path
  | .modified path => s.look vault path
  | .deleted path => s.uncache path
  | .renamed source target =>
    let (gone, s) := s.uncache source
    let (seen, s) := s.look vault target
    (gone ++ seen, s)

/-! ### What a link in a note leads to -/

/-- The known path among a path and the path with the ending of a note. -/
def directHit? (s : Snapshot) (path : String) : Option String :=
  if path.isEmpty then none
  else if (s.get? path).isSome then some path
  else if (s.get? (path ++ ".md")).isSome then some (path ++ ".md")
  else none

/-- The path is the wanted one or ends with it after a slash. -/
def isTail (wanted path : String) : Bool :=
  path == wanted || Text.endsWith ('/' :: wanted.toList) path.toList

/-- The path with fewer bytes, and of equally long ones the lesser. -/
def better (a b : String) : String :=
  if b.utf8ByteSize < a.utf8ByteSize || (b.utf8ByteSize == a.utf8ByteSize && b < a) then b else a

/-- The best of some paths. -/
def best? : List String → Option String
  | [] => none
  | path :: rest => some (rest.foldl better path)

/-- The file that a link leads to from a directory: seen from the directory, else from the root, and else
the shortest path that ends with the link. -/
def destination? (s : Snapshot) (link directory : String) : Option String :=
  if link.isEmpty then none
  else
    let near := s.directHit? (Path.fold (Path.inDirectory directory link))
    let direct := near.orElse fun _ => s.directHit? (Path.fold link)
    direct.orElse fun _ =>
      let wanted := Path.normalize link
      best? (s.paths.filter fun path => isTail wanted path || isTail (wanted ++ ".md") path)

end Snapshot

end ScriptVault
