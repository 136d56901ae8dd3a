import SchemaOnRead.Storage.Store
import SchemaOnRead.Trace

/-!
# Walks

A walk goes through everything below a directory, depth first, in listing order. A directory comes
before its contents and is listed only when the walk goes on past it; a directory that is not
accepted is neither yielded nor listed. The effects of a walk are the paths of the listings.
-/

namespace SchemaOnRead

/-- A walk: the paths it lists and the objects it finds. -/
abbrev Walk := Trace String StoredObject

namespace Walk

mutual

/-- The walk through a directory's contents; a file has none. -/
def ofTree (accept : StoredObject → Result Bool) (path : String) : Tree → Walk
  | .file _ => .ended
  | .directory entries => (ofEntries accept path entries).effect path

/-- The walk through entries of a directory. -/
def ofEntries (accept : StoredObject → Result Bool) (path : String) :
    List (String × Tree) → Walk
  | [] => .ended
  | (name, t) :: rest =>
    let o := t.describe (Path.join path name) name
    if o.isDirectory then
      match accept o with
      | .error f => .failing f
      | .ok false => ofEntries accept path rest
      | .ok true => ((ofTree accept o.path t).append (ofEntries accept path rest)).yield o
    else (ofEntries accept path rest).yield o

end

/-- The walk that starts in a directory of a store. -/
def start (s : Store) (path : String) (accept : StoredObject → Result Bool) : Walk :=
  match s.find path with
  | .error f => (Trace.failing f).effect path
  | .ok (.file _) => (Trace.failing (Failure.mk (.objectNotFound path) [])).effect path
  | .ok t => ofTree accept path t

/-- The walk that accepts every directory. -/
def all (s : Store) (path : String) : Walk := start s path fun _ => .ok true

end Walk

end SchemaOnRead
