import Socks5d.Story

/-! # Events and the life of a client

Socket events reach the handler that expects them, and none reaches a client that
was destroyed. -/

namespace Socks5d
open EventRun

/-- No socket event runs into an `abort()` of the engine or of the relay. -/
theorem socket_events_never_abort (users : UserTable) (masters monitors : List ℤ)
    (evs : List Event) :
    let s := exec step (boot users masters monitors) evs
    (∀ st, s.halted ≠ some (.noReadReady st)) ∧ (∀ st, s.halted ≠ some (.noWriteReady st)) ∧
      s.halted ≠ some .badState ∧ s.halted ≠ some .foreignFd := by
  intro s
  have hinv : Inv s := reachable_inv users masters monitors evs
  have hrouted : ∀ f, f.misrouted = true → s.halted ≠ some f := by
    intro f hf hs
    rw [hinv.faults f hs] at hf
    cases hf
  exact ⟨fun st => hrouted _ rfl, fun st => hrouted _ rfl, hrouted _ rfl, hrouted _ rfl⟩

/-! ## Destruction -/

/-- The structure of client `id` is freed and no registration names it. -/
structure Gone (id : ClientId) (s : Server) : Prop where
  freed : s.heap id = none
  unregistered : ∀ fd it, item? s.w.selector fd = some it → it.data ≠ some (.socks5 id)

theorem Quiet.destroyed_iff {x x' : Ctx} (h : Quiet x x') {id : ClientId} :
    .destroyed id ∈ x'.w.log ↔ .destroyed id ∈ x.w.log := by
  obtain ⟨os, hos, hlog⟩ := h.logs
  rw [hlog, List.mem_append, or_iff_left]
  intro hmem
  cases hos _ hmem

/-- A client is destroyed once, by its arrival in `DONE`. -/
def mortal : Story where
  live id _ _ h := .destroyed id ∉ h
  gone id h := h.count (.destroyed id) = 1
  current h := h
  born id fd n e k _ := by simp
  read _ _ _ _ _ hq h := by
    simpa [mem_history, hq.destroyed_iff] using h
  write _ _ _ _ _ hq h := by
    simpa [mem_history, hq.destroyed_iff] using h
  resolved _ h := h
  block h := h
  resolving h := by simpa using h
  done h := by
    rw [List.count_append, List.count_eq_zero_of_not_mem h, List.count_singleton_self]

theorem Story.Told.destroyed_gone {s : Server} (h : mortal.Told s) (hinv : Inv s) {id : ClientId}
    (hd : .destroyed id ∈ s.w.log) : Gone id s := by
  have hfreed : s.heap id = none := by
    cases hc : s.heap id with
    | none => rfl
    | some c => exact absurd (mem_history.mpr ⟨hd, rfl⟩) (h.live id c hc)
  refine ⟨hfreed, ?_⟩
  intro fd it hit hdata
  exact absurd (hinv.dead id hfreed fd it hit hdata) List.not_mem_nil

theorem Story.Told.destroyed_count {s : Server} (h : mortal.Told s) (hinv : Inv s) (id : ClientId) :
    s.w.log.count (.destroyed id) ≤ 1 := by
  have hcount : s.w.log.count (.destroyed id) = (history id s.w.log).count (.destroyed id) := by
    rw [history, List.count_filter (by simp [Obs.owner])]
  rw [hcount]
  cases hc : s.heap id with
  | some c =>
    rw [List.count_eq_zero_of_not_mem (h.live id c hc)]
    exact Nat.zero_le _
  | none =>
    by_cases hlt : id < s.nextId
    · exact Nat.le_of_eq (h.gone id hlt hc)
    · rw [(hinv.fresh id (Nat.not_lt.mp hlt)).2]
      exact Nat.zero_le _

/-- No registration outlives its client. The third part is about the state between
the two halves of the dispatch of one descriptor. -/
theorem destroyed_once_and_unregistered (users : UserTable) (masters monitors : List ℤ)
    (evs : List Event) (id : ClientId) :
    let s := exec step (boot users masters monitors) evs
    s.w.log.count (.destroyed id) ≤ 1 ∧ (.destroyed id ∈ s.w.log → Gone id s) ∧
      (∀ i r e, itemUsed (s.w.selector.fds i) = true →
        .destroyed id ∈ (readHalf i r e s).w.log → Gone id (readHalf i r e s)) ∧
      s.halted ≠ some .staleEvent := by
  intro s
  have hinv : Inv s := reachable_inv users masters monitors evs
  have htold : mortal.Told s := mortal.reachable users masters monitors evs
  refine ⟨htold.destroyed_count hinv id, htold.destroyed_gone hinv, ?_, ?_⟩
  · intro i r e hu
    have hm : Move anyWrite s (readHalf i r e s) := readHalf_move hinv hu r e
    exact (htold.move hinv hm).destroyed_gone (hinv.move hm)
  · intro hs
    cases hinv.faults _ hs

end Socks5d
