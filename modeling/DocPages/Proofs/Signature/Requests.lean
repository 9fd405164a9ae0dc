import DocPages.Proofs.Collection.Grouping
import DocPages.Proofs.Signature.Steps
import Mathlib.Algebra.GroupWithZero.Nat
import Mathlib.Data.Finset.Card

/-!
# Sequences of requests

What a fresh session answers to a sequence of requests for signatures. The session remembers the
first request of every key, so every request is answered with the signature of the first declaration
of its key, and problems are reported once for every key.
-/

namespace DocPages

open Build

namespace Declaration

/-- The first request for the signature of a declaration: that for the first declaration with its
key. -/
def firstRequest (requests : List Declaration) (declaration : Declaration) : Declaration :=
  (requests.find? fun other =>
    SignatureKey.ofDeclaration other = .ofDeclaration declaration).getD declaration

/-- The first requests of all keys. -/
def firstRequests (requests : List Declaration) : List Declaration :=
  distinctBy SignatureKey.ofDeclaration requests

/-- The first request for a declaration that has been requested stays the first. -/
theorem firstRequest_append {requests : List Declaration} {declaration : Declaration}
    (member : declaration ∈ requests) (later : List Declaration) :
    firstRequest (requests ++ later) declaration = firstRequest requests declaration := by
  obtain ⟨first, found⟩ : ∃ first, (requests.find? fun other =>
      SignatureKey.ofDeclaration other = .ofDeclaration declaration) = some first := by
    rw [← Option.isSome_iff_exists, List.find?_isSome]
    exact ⟨declaration, member, by simp⟩
  rw [firstRequest, firstRequest, List.find?_append, found, Option.some_or]

/-- There are as many first requests as there are keys. -/
theorem card_keys (requests : List Declaration) :
    (requests.map SignatureKey.ofDeclaration).toFinset.card = (firstRequests requests).length := by
  have distinct : ((firstRequests requests).map SignatureKey.ofDeclaration).Nodup :=
    List.pairwise_map.mpr (pairwise_distinctBy SignatureKey.ofDeclaration requests)
  have sameKeys : (requests.map SignatureKey.ofDeclaration).toFinset =
      ((firstRequests requests).map SignatureKey.ofDeclaration).toFinset := by
    ext key
    rw [List.mem_toFinset, List.mem_toFinset, List.mem_map, List.mem_map]
    constructor
    · rintro ⟨request, member, rfl⟩
      exact exists_mem_distinctBy member
    · rintro ⟨first, isFirst, rfl⟩
      exact ⟨first, mem_of_mem_distinctBy isFirst, rfl⟩
  rw [sameKeys, List.toFinset_card_of_nodup distinct, List.length_map]

end Declaration

open Declaration

/-- The errors that making the signature of a declaration reports. -/
def Signature.errorsOf (declaration : Declaration) : Nat :=
  (Report.ofProblems (problemsOf declaration)).errors

theorem Report.errors_ofProblems_flatMap {α : Type} (elements : List α)
    (problems : α → List Problem) :
    (Report.ofProblems (elements.flatMap problems)).errors =
      (elements.map fun element => (Report.ofProblems (problems element)).errors).sum := by
  simp only [Report.ofProblems, List.countP_flatMap]
  rfl

/-- What a session holds after a sequence of requests in which it was fresh. -/
structure Session.Remembers (session : Session) (requests : List Declaration) : Prop where
  /-- Under every key is the signature of the first declaration that was requested with it. -/
  find : ∀ key, session.cache.find? key =
    (requests.find? fun request => SignatureKey.ofDeclaration request = key).map
      Signature.nodesOf
  size : session.cache.size = (firstRequests requests).length
  misses : session.cache.misses = (firstRequests requests).length
  hits : session.cache.hits + session.cache.misses = requests.length
  problems : session.problems = (firstRequests requests).flatMap Signature.problemsOf

theorem Session.remembers_nil : Session.Remembers {} [] where
  find _ := rfl
  size := rfl
  misses := rfl
  hits := rfl
  problems := rfl

namespace Session.Remembers

variable {session : Session} {requests : List Declaration}

/-- A request for a key that was requested before finds the signature of the first request. -/
private theorem signature_of_mem (remembers : session.Remembers requests)
    {declaration : Declaration}
    (old : SignatureKey.ofDeclaration declaration ∈ requests.map SignatureKey.ofDeclaration) :
    ((signature declaration).run session).1 =
        Signature.nodesOf (firstRequest (requests ++ [declaration]) declaration) ∧
      ((signature declaration).run session).2.Remembers (requests ++ [declaration]) := by
  obtain ⟨first, found⟩ : ∃ first, (requests.find? fun request =>
      SignatureKey.ofDeclaration request = .ofDeclaration declaration) = some first := by
    rw [← Option.isSome_iff_exists, List.find?_isSome]
    simpa using old
  have cached : session.cache.find? (.ofDeclaration declaration) =
      some (Signature.nodesOf first) := by
    rw [remembers.find, found, Option.map_some]
  have sameFirsts : firstRequests (requests ++ [declaration]) = firstRequests requests := by
    rw [firstRequests, distinctBy_append_singleton, if_pos old, List.append_nil, firstRequests]
  rcases signature_cases declaration session with ⟨nodes, hit, run⟩ | ⟨miss, -⟩
  · obtain rfl := Option.some.inj (cached.symm.trans hit)
    rw [run]
    refine ⟨by rw [firstRequest, List.find?_append, found]; rfl, ?_⟩
    exact
      { find := fun key => by
          change session.cache.find? key = _
          rw [List.find?_append]
          by_cases same : SignatureKey.ofDeclaration declaration = key
          · subst same
            simpa [found] using cached
          · simpa [same] using remembers.find key
        size := by rw [sameFirsts]; exact remembers.size
        misses := by rw [sameFirsts]; exact remembers.misses
        hits := by
          have counted := remembers.hits
          simp only [List.length_append, List.length_singleton]
          omega
        problems := by rw [sameFirsts]; exact remembers.problems }
  · rw [cached] at miss
    cases miss

/-- A request for a new key makes the signature and reports its problems. -/
private theorem signature_of_not_mem (remembers : session.Remembers requests)
    {declaration : Declaration}
    (new : SignatureKey.ofDeclaration declaration ∉ requests.map SignatureKey.ofDeclaration) :
    ((signature declaration).run session).1 =
        Signature.nodesOf (firstRequest (requests ++ [declaration]) declaration) ∧
      ((signature declaration).run session).2.Remembers (requests ++ [declaration]) := by
  have notFound : (requests.find? fun request =>
      SignatureKey.ofDeclaration request = .ofDeclaration declaration) = none := by
    simpa using new
  have uncached : session.cache.find? (.ofDeclaration declaration) = none := by
    rw [remembers.find, notFound, Option.map_none]
  have moreFirsts : firstRequests (requests ++ [declaration]) =
      firstRequests requests ++ [declaration] := by
    rw [firstRequests, distinctBy_append_singleton, if_neg new, firstRequests]
  rcases signature_cases declaration session with ⟨nodes, hit, -⟩ | ⟨-, run⟩
  · rw [uncached] at hit
    cases hit
  · rw [run]
    refine ⟨by simp [firstRequest, List.find?_append, notFound], ?_⟩
    exact
      { find := fun key => by
          rw [List.find?_append]
          by_cases same : SignatureKey.ofDeclaration declaration = key
          · subst same
            simp [SignatureCache.find?, notFound]
          · have unchanged := remembers.find key
            simpa [SignatureCache.find?, same] using unchanged
        size := by
          rw [moreFirsts, List.length_append, ← remembers.size]
          rfl
        misses := by rw [moreFirsts, List.length_append, ← remembers.misses]; rfl
        hits := by
          have counted := remembers.hits
          simp only [List.length_append, List.length_singleton]
          omega
        problems := by
          rw [moreFirsts, List.flatMap_append, ← remembers.problems, List.flatMap_singleton] }

/-- A request is answered with the signature of the first request for its key, and the session
remembers it. -/
theorem signature (remembers : session.Remembers requests) (declaration : Declaration) :
    ((Build.signature declaration).run session).1 =
        Signature.nodesOf (firstRequest (requests ++ [declaration]) declaration) ∧
      ((Build.signature declaration).run session).2.Remembers (requests ++ [declaration]) := by
  by_cases old : SignatureKey.ofDeclaration declaration ∈ requests.map SignatureKey.ofDeclaration
  · exact remembers.signature_of_mem old
  · exact remembers.signature_of_not_mem old

/-- A sequence of requests after others is answered with the signatures of the first requests among
all of them. -/
theorem signatures (remembers : session.Remembers requests) (more : List Declaration) :
    ((more.mapM Build.signature).run session).1 =
        more.map (fun request => Signature.nodesOf (firstRequest (requests ++ more) request)) ∧
      ((more.mapM Build.signature).run session).2.Remembers (requests ++ more) := by
  induction more generalizing session requests with
  | nil =>
      rw [List.append_nil]
      exact ⟨rfl, remembers⟩
  | cons head tail ih =>
      obtain ⟨answer, after⟩ := remembers.signature head
      obtain ⟨answers, final⟩ := ih after
      have asked : head ∈ requests ++ [head] := by simp
      have stays := firstRequest_append asked tail
      rw [List.append_assoc, List.singleton_append] at stays answers final
      rw [List.mapM_cons]
      refine ⟨?_, final⟩
      rw [List.map_cons, stays, ← answer, ← answers]
      rfl

end Session.Remembers

namespace Build

/-- Every request of a sequence in a fresh session is answered with the signature of the first
declaration of its key. The session then has one signature for every key, it has missed once for
every key and hit otherwise, and its errors are those of the first requests. -/
theorem run_signatures (requests : List Declaration) :
    ∃ answers session, (requests.mapM signature).run {} = (answers, session) ∧
      answers = requests.map (fun request =>
        Signature.nodesOf (firstRequest requests request)) ∧
      session.cache.misses = (requests.map SignatureKey.ofDeclaration).toFinset.card ∧
      session.cache.size = session.cache.misses ∧
      session.cache.hits + session.cache.misses = requests.length ∧
      session.report.errors = ((firstRequests requests).map Signature.errorsOf).sum := by
  obtain ⟨answered, remembers⟩ := Session.remembers_nil.signatures requests
  rw [List.nil_append] at answered remembers
  cases run : (requests.mapM signature).run {} with
  | mk answers session =>
      rw [run] at answered remembers
      refine ⟨answers, session, rfl, answered, ?_, remembers.size.trans remembers.misses.symm,
        remembers.hits, ?_⟩
      · rw [remembers.misses, card_keys]
      · rw [Session.report, remembers.problems]
        exact Report.errors_ofProblems_flatMap _ _

end Build

end DocPages
