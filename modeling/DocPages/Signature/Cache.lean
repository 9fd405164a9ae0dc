import DocPages.Content.Fragment
import DocPages.Signature.Declaration

/-!
# Cached signatures

The signature of a declaration is requested by its own page and by every table that lists it. A run
keeps the signatures it has made under the identity, the source sets and the kind of the
declaration. The first request for a key makes the signature and reports its problems; later ones
get the same nodes, whatever else the declaration holds.
-/

namespace DocPages

open Content

/-- The key of a signature. -/
structure SignatureKey where
  dri : Dri
  sourceSets : SourceSets
  kindName : String
deriving DecidableEq, Inhabited

/-- The key of the signature of a declaration. -/
def SignatureKey.ofDeclaration (declaration : Declaration) : SignatureKey :=
  ⟨declaration.dri, declaration.sourceSets, declaration.kindName⟩

/-- The signatures that a run has made. -/
structure SignatureCache where
  entries : List (SignatureKey × List Node) := []
  /-- The number of requests that found their key. -/
  hits : Nat := 0
  /-- The number of requests that did not. -/
  misses : Nat := 0
deriving Inhabited

namespace SignatureCache

/-- The signature under a key. -/
def find? (cache : SignatureCache) (key : SignatureKey) : Option (List Node) :=
  (cache.entries.find? fun entry => entry.1 = key).map Prod.snd

/-- The number of signatures. -/
def size (cache : SignatureCache) : Nat := cache.entries.length

end SignatureCache

/-- The state of a run: the signatures it has made and the problems it has reported. -/
structure Session where
  cache : SignatureCache := {}
  problems : List Problem := []
deriving Inhabited

namespace Session

/-- The counts of the reported problems. -/
def report (session : Session) : Report := .ofProblems session.problems

end Session

/-- A step of a run. -/
abbrev Build := StateM Session

namespace Build

def report (problem : Problem) : Build Unit :=
  modify fun session => { session with problems := session.problems ++ [problem] }

/-- The signature of a declaration, from the cache if its key is there. -/
def signature (declaration : Declaration) : Build (List Node) := fun session =>
  let key := SignatureKey.ofDeclaration declaration
  match session.cache.find? key with
  | some nodes =>
    (nodes, { session with cache := { session.cache with hits := session.cache.hits + 1 } })
  | none =>
    let nodes := Signature.nodesOf declaration
    (nodes,
      { cache :=
          { session.cache with
            entries := (key, nodes) :: session.cache.entries
            misses := session.cache.misses + 1 }
        problems := session.problems ++ Signature.problemsOf declaration })

end Build

namespace Content

namespace Fragment

/-- The signature of a declaration. -/
def signature (declaration : Declaration) : Fragment Build := fun _ => Build.signature declaration

/-- A type, whose problems are reported. -/
def typeUse (type : TypeUse) : Fragment Build := fun scope => do
  let pieces := Signature.ofType type
  (Signature.problems pieces).forM Build.report
  return pieces.map (Signature.Piece.toNode scope)

end Fragment

end Content

end DocPages
