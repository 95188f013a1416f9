import Socks5d.Invariant

/-! # No lost wake-up

While a client relays, a side that has something to do is in the set that `pselect`
is called with. -/

namespace Socks5d
open EventRun

variable {d : Handler} {sel : FdSelector Handler} {fd : ℤ} {i m : FdInterest} {id : ClientId}
  {c : Client}

theorem Held.masterR (h : Held d sel fd i m) (hinv : SelectorInv sel) (hi : i.read = true)
    (hm : m.read = true) : sel.masterR fd.toNat = true := by
  rw [hinv.masterR_iff h.valid]
  obtain ⟨it, hit, -, rfl, hle⟩ := h
  exact ⟨it, hit, hi, (FdInterest.le_def.mp hle).1 hm⟩

theorem Held.masterW (h : Held d sel fd i m) (hinv : SelectorInv sel) (hi : i.write = true)
    (hm : m.write = true) : sel.masterW fd.toNat = true := by
  rw [hinv.masterW_iff h.valid]
  obtain ⟨it, hit, -, rfl, hle⟩ := h
  exact ⟨it, hit, hi, (FdInterest.le_def.mp hle).2 hm⟩

/-- Every side that has something to do is watched. -/
structure Watched (c : Client) (sel : FdSelector Handler) : Prop where
  clientWrite : c.activeEnds.clientWrite = true →
    (bufferCanRead c.clientBuf = true ∨ c.activeEnds.originRead = false) →
    sel.masterW c.clientSock.toNat = true
  originWrite : c.activeEnds.originWrite = true →
    (bufferCanRead c.originBuf = true ∨ c.activeEnds.clientRead = false) →
    sel.masterW c.originSock.toNat = true
  clientRead : c.activeEnds.clientRead = true → bufferCanWrite c.originBuf = true →
    sel.masterR c.clientSock.toNat = true
  originRead : c.activeEnds.originRead = true → bufferCanWrite c.clientBuf = true →
    sel.masterR c.originSock.toNat = true

theorem Relaying.watched (h : Relaying id c sel) (hinv : SelectorInv sel) : Watched c sel := by
  refine ⟨?_, ?_, ?_, ?_⟩
  · intro _ hsome
    refine h.joined.client.masterW hinv rfl ?_
    simpa [clientMask] using hsome
  · intro how hsome
    refine h.joined.origin.masterW hinv how ?_
    simpa [originMask, how] using hsome
  · intro hcr hroom
    exact h.joined.client.masterR hinv hcr (by simp [clientMask, hcr, hroom])
  · intro hor hroom
    exact h.joined.origin.masterR hinv hor (by simp [originMask, hor, hroom])

theorem Draining.watched (h : Draining id c sel fun fd => Held (.socks5 id) sel fd opWrite opWrite)
    (hinv : SelectorInv sel) : Watched c sel := by
  rcases h with ⟨he, -, hc⟩ | ⟨he, -, -, hc, ho⟩
  · refine ⟨fun _ _ => hc.masterW hinv rfl rfl, ?_, ?_, ?_⟩ <;> rw [he] <;> intro hno <;> cases hno
  · refine ⟨fun _ _ => hc.masterW hinv rfl rfl, fun _ _ => ho.masterW hinv rfl rfl, ?_, ?_⟩ <;>
      rw [he] <;> intro hno <;> cases hno

theorem relaying_client_is_watched (users : UserTable) (masters monitors : List ℤ)
    (evs : List Event) (id : ClientId) (c : Client)
    (hc : (exec step (boot users masters monitors) evs).heap id = some c)
    (hst : c.current = some .proxy ∨ c.current = some .writeRemaining) :
    Watched c (exec step (boot users masters monitors) evs).w.selector := by
  have hinv := reachable_inv users masters monitors evs
  have hctl := hinv.live id c hc
  rcases hst with hst | hst
  · rw [hst] at hctl
    exact Relaying.watched hctl hinv.selector
  · rw [hst] at hctl
    exact Draining.watched hctl hinv.selector

theorem joined_client_is_watched :
    ∃ c, (exec step (boot [] [] []) (greet 3 ++ join 3 4)).heap 0 = some c ∧
      c.current = some .proxy ∧
      Watched c (exec step (boot [] [] []) (greet 3 ++ join 3 4)).w.selector := by
  have hrun : ((exec step (boot [] [] []) (greet 3 ++ join 3 4)).heap 0).bind (·.current) =
      some .proxy := by decide
  obtain ⟨c, hc, hcur⟩ := Option.bind_eq_some_iff.mp hrun
  exact ⟨c, hc, hcur, relaying_client_is_watched [] [] [] _ 0 c hc (.inl hcur)⟩

end Socks5d
