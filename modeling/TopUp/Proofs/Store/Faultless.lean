import TopUp.Store.Basic

/-! # A store without faults

    Without faults every operation of a store is that of the store in memory.
-/

namespace TopUp.Store

variable {s : Store} {r : String} {status : Status} {d : Draft}

theorem failure?_of_faults (h : s.faults = []) (o : Operation) : s.failure? o = none := by
  simp [failure?, Faults.effect?, h]

theorem meets_of_faults (h : s.faults = []) (o : Operation) (e : Effect) :
    s.meets o e = false := by
  simp [meets, Faults.effect?, h]

theorem get_of_faults (h : s.faults = []) : s.get r = .ok (s.memory.ledger.find? r) := by
  simp [get, failure?_of_faults h, meets_of_faults h]

theorem update_of_faults (h : s.faults = []) :
    s.update r status =
      (s.memory.update r status).map fun x => (x.1, { s with memory := x.2 }) := by
  simp [update, failure?_of_faults h, meets_of_faults h]

theorem claim_of_faults (h : s.faults = []) :
    s.claim r = .ok ((s.memory.claim r).1, { s with memory := (s.memory.claim r).2 }) := by
  simp [claim, failure?_of_faults h]

theorem clear_of_faults (h : s.faults = []) :
    s.clear r = .ok { s with memory := s.memory.clear r } := by
  simp [clear, failure?_of_faults h]

theorem lookupLock_of_faults (h : s.faults = []) (key : Uuid) (owner : Nat) :
    s.lookupLock key owner = .ok ((s.memory.locks.lookup key owner).1,
      { s with memory := { s.memory with locks := (s.memory.locks.lookup key owner).2 } }) := by
  simp [lookupLock, failure?_of_faults h]

theorem readDraft_of_faults (h : s.faults = []) (key : Uuid) :
    s.readDraft d key = .ok (d.byKey? s.memory.ledger key) := by
  simp [readDraft, failure?_of_faults h]

theorem createDraft_of_faults (h : s.faults = []) (new : NewTransaction) (id : Uuid) (now : Int) :
    s.createDraft d new id now = d.create s.memory.ledger new id now := by
  simp [createDraft, failure?_of_faults h]

theorem updateDraft_of_faults (h : s.faults = []) :
    s.updateDraft d r status = s.memory.updateDraft d r status := by
  simp [updateDraft, failure?_of_faults h, meets_of_faults h]

theorem commitDraft_of_faults (h : s.faults = []) :
    s.commitDraft d = .ok { s with memory := s.memory.commit d } := by
  simp [commitDraft, failure?_of_faults h]

end TopUp.Store
