import CoqConsole.Proofs.Session.Upkeep

/-!
# What a desk does with its link

A desk sends over its link, and does nothing else with it. What it holds under an address is a buffer of that address,
whatever addresses its buffers have, so everything that it holds can be let go.

* `Desk.Linked` : what is held under an address has it, and the link has a property that sending keeps;
* `Linked.upkeep` : every operation keeps a desk so, whether it fails or not;
* `run_shutdown` : a desk can be shut down.
-/

namespace CoqConsole

variable {L : Type}

def Carrier.Keeps (carrier : Carrier L) (P : L → Prop) : Prop :=
  ∀ method params link link', P link → carrier.send method params link = .ok link' → P link'

namespace Desk

/-- What is held is filed, and the link has a property. -/
structure Linked (P : L → Prop) (d : Desk L) : Prop extends Filed d where
  link : P d.link

namespace Linked

variable {carrier : Carrier L} {P : L → Prop}

theorem of_eq {d d' : Desk L} (h : Linked P d) (hlink : d'.link = d.link)
    (huris : d'.buffers.map Buffer.uri = d.buffers.map Buffer.uri)
    (hattachments : d'.session.attachments = d.session.attachments) : Linked P d' :=
  ⟨h.toFiled.of_eq huris hattachments, hlink ▸ h.link⟩

theorem holding {d : Desk L} (h : Linked P d) {n : Nat} (hn : n < d.buffers.length)
    (hout : (d.bufferAt n).uri ∉ Keyed.keys d.session.attachments) : Linked P (d.holding n) :=
  ⟨h.toFiled.holding hn hout, h.link⟩

theorem upkeep (hsend : carrier.Keeps P) : Upkeep carrier (fun _ => True) (fun _ => True) (Linked (L := L) P) where
  met _ := trivial
  filed h := h.toFiled
  held _ _ := trivial
  send h hlink := ⟨h.toFiled.of_eq rfl rfl, hsend _ _ _ _ h.link hlink⟩
  note _ _ h _ hattachments _ := h.of_eq rfl rfl hattachments
  edit h hedited _ := h.of_eq rfl (map_uri_withBuffer hedited.uri) rfl
  turn h _ _ := h.of_eq rfl rfl rfl
  release h _ _ := ⟨h.toFiled.releasing _ _, h.link⟩

end Linked

/-! ## Shutting down -/

/-- What is held can be let go, one after the other. -/
theorem run_detachAll {d : Desk L} (h : d.Filed) (held : List (String × Attachment))
    (hheld : held ⊆ d.session.attachments) (single : (Keyed.keys held).Nodup) :
    ∃ d', ((held.map fun p => p.2.buffer).forM detach).run.run d = (.ok (), d') := by
  induction held generalizing d with
  | nil => exact ⟨d, rfl⟩
  | cons p held ih =>
    obtain ⟨uri, a⟩ := p
    obtain ⟨hout, single⟩ := List.nodup_cons.mp single
    have hmem : (uri, a) ∈ d.session.attachments := hheld List.mem_cons_self
    have huri : (d.bufferAt a.buffer).uri = uri := uri_of_getElem? (h.filed uri a hmem)
    have hget : Keyed.get? uri d.session.attachments = some a := (Keyed.get?_eq_some h.single).mpr hmem
    -- Those that are left have other addresses, so they are still held.
    have hrest : held ⊆ (d.releasing a.buffer a).session.attachments := by
      intro p hp
      refine Keyed.mem_erase.mpr ⟨hheld (List.mem_cons_of_mem _ hp), ?_⟩
      rw [huri]
      rintro rfl
      exact hout (List.mem_map.mpr ⟨p, hp, rfl⟩)
    obtain ⟨d', hrun⟩ := ih (h.releasing a.buffer a) hrest single
    refine ⟨d', ?_⟩
    show (detach a.buffer >>= fun _ => (held.map fun p => p.2.buffer).forM detach).run.run d = _
    simp only [run_bind, run_detach, huri, hget]
    exact hrun

theorem run_shutdown {d : Desk L} (h : d.Filed) : ∃ d', shutdown.run.run d = (.ok (), d') := by
  obtain ⟨d', hrun⟩ := run_detachAll h d.session.attachments (List.Subset.refl _) h.single
  have hrun' : shutdown.run.run d = (editSession fun s =>
      { s with proofPane := s.proofPane.write .clear, queryPane := s.queryPane.write .clear }).run.run d' := by
    simp only [shutdown, run_bind, run_get]
    rw [hrun]
  exact ⟨_, hrun'⟩

end Desk
end CoqConsole
