import CoqConsole.Proofs.Keyed
import CoqConsole.Tickets

/-!
# Laws of tickets

Tickets are numbered over all channels, and each channel knows its last one only. So a channel's answers are judged by
its own tickets, whatever is issued for others, and what is stale once stays so.

* `latest_issue` : a ticket is the last one of its channel, and of no other;
* `accept_iff` : which answers are not stale;
* `Counted.issue`, `Counted.issueAll` : a channel's last ticket never goes back, nor above the counter;
* `issueAll`, `lastOf?`, `latest_issueAll` : tickets issued one after another, and the last of each channel;
* `Judges`, `judges_issueAll` : how they judge answers, after any run.
-/

namespace CoqConsole.Tickets

variable {κ : Type} [DecidableEq κ]

theorem latest_issue (t : Tickets κ) (channel other : κ) :
    (t.issue channel).2.latest other = if channel = other then t.issued + 1 else t.latest other := by
  simp only [latest, issue, Keyed.get?_put]
  split <;> rfl

@[simp] theorem issued_issue (t : Tickets κ) (channel : κ) :
    (t.issue channel).2.issued = t.issued + 1 := rfl

theorem accept_iff {t : Tickets κ} {channel : κ} {ticket : Int} :
    t.accept channel ticket = true ↔ (t.latest channel : Int) ≤ ticket := by
  simp [accept]

theorem refuses_iff {t : Tickets κ} {channel : κ} {ticket : Int} :
    t.accept channel ticket = false ↔ ticket < t.latest channel := by
  rw [← Bool.not_eq_true, accept_iff, Int.not_le]

/-- No channel's last ticket is above the counter. -/
def Counted (t : Tickets κ) : Prop := ∀ channel, t.latest channel ≤ t.issued

theorem counted_none : (none : Tickets κ).Counted := fun _ => Nat.le_refl 0

theorem Counted.issue {t : Tickets κ} (h : t.Counted) (channel : κ) :
    (t.issue channel).2.Counted ∧ ∀ other, t.latest other ≤ (t.issue channel).2.latest other := by
  constructor
  · intro other
    rw [latest_issue, issued_issue]
    split
    · exact Nat.le_refl _
    · exact Nat.le_succ_of_le (h other)
  · intro other
    rw [latest_issue]
    split
    · exact Nat.le_succ_of_le (h other)
    · exact Nat.le_refl _

/-! ## Runs -/

/-- Tickets issued for channels one after another, each with its channel, and what is left. -/
def issueAll (t : Tickets κ) : List κ → List (κ × Nat) × Tickets κ
  | [] => ([], t)
  | channel :: rest =>
    let (ticket, t) := t.issue channel
    let (more, t) := t.issueAll rest
    ((channel, ticket) :: more, t)

theorem Counted.issueAll {t : Tickets κ} (h : t.Counted) (channels : List κ) :
    (t.issueAll channels).2.Counted ∧ ∀ other, t.latest other ≤ (t.issueAll channels).2.latest other := by
  induction channels generalizing t with
  | nil => exact ⟨h, fun _ => Nat.le_refl _⟩
  | cons channel rest ih =>
    obtain ⟨hcounted, hle⟩ := h.issue channel
    obtain ⟨hcounted', hle'⟩ := ih hcounted
    exact ⟨hcounted', fun other => Nat.le_trans (hle other) (hle' other)⟩

/-- The numbers follow each other. -/
theorem issues_issueAll (t : Tickets κ) (channels : List κ) :
    (t.issueAll channels).1 = channels.zipIdx (t.issued + 1) := by
  induction channels generalizing t with
  | nil => rfl
  | cons channel rest ih => exact congrArg _ (ih (t.issue channel).2)

theorem channels_issueAll (t : Tickets κ) (channels : List κ) :
    (t.issueAll channels).1.map Prod.fst = channels := by
  rw [issues_issueAll, List.zipIdx_map_fst]

def lastOf? (channel : κ) (issues : List (κ × Nat)) : Option Nat :=
  ((issues.filter fun p => p.1 = channel).map Prod.snd).getLast?

theorem lastOf?_append (channel : κ) (ps qs : List (κ × Nat)) :
    lastOf? channel (ps ++ qs) = (lastOf? channel qs).or (lastOf? channel ps) := by
  rw [lastOf?, List.filter_append, List.map_append, List.getLast?_append]
  rfl

theorem lastOf?_eq_none {channel : κ} {ps : List (κ × Nat)} :
    lastOf? channel ps = Option.none ↔ ∀ p ∈ ps, p.1 ≠ channel := by
  simp [lastOf?]

theorem mem_of_lastOf? {channel : κ} {ps : List (κ × Nat)} {ticket : Nat}
    (h : lastOf? channel ps = some ticket) : (channel, ticket) ∈ ps := by
  obtain ⟨p, hp, rfl⟩ := List.mem_map.mp (List.mem_of_getLast? h)
  obtain ⟨hmem, hchannel⟩ := List.mem_filter.mp hp
  obtain rfl : p.1 = channel := of_decide_eq_true hchannel
  exact hmem

theorem latest_issueAll (t : Tickets κ) (channels : List κ) (channel : κ) :
    (t.issueAll channels).2.latest channel =
      (lastOf? channel (t.issueAll channels).1).getD (t.latest channel) := by
  induction channels generalizing t with
  | nil => rfl
  | cons first rest ih =>
    have hsplit : (t.issueAll (first :: rest)).1 = [(first, t.issued + 1)] ++ ((t.issue first).2.issueAll rest).1 := rfl
    have hlatest : (t.issueAll (first :: rest)).2.latest channel = _ := ih (t.issue first).2
    rw [hlatest, hsplit, lastOf?_append, latest_issue]
    cases lastOf? channel ((t.issue first).2.issueAll rest).1 with
    | some ticket => rfl
    | none => by_cases hfirst : first = channel <;> simp [lastOf?, hfirst]

theorem latest_issueAll_of_notMem (t : Tickets κ) {channels : List κ} {channel : κ} (h : channel ∉ channels) :
    (t.issueAll channels).2.latest channel = t.latest channel := by
  have hnone : lastOf? channel (t.issueAll channels).1 = Option.none := by
    rw [lastOf?_eq_none]
    rintro p hp rfl
    exact h (t.channels_issueAll channels ▸ List.mem_map_of_mem hp)
  rw [latest_issueAll, hnone, Option.getD_none]

/-! ## Judging answers -/

/-- What tickets have of those that were issued: their numbers ascend, and each channel knows its last one. -/
structure Ledger (t : Tickets κ) (issues : List (κ × Nat)) : Prop where
  ascending : (issues.map Prod.snd).Pairwise (· < ·)
  latest_eq : ∀ channel, t.latest channel = (lastOf? channel issues).getD 0

theorem ledger_issueAll (channels : List κ) :
    ((none : Tickets κ).issueAll channels).2.Ledger ((none : Tickets κ).issueAll channels).1 where
  ascending := by
    rw [issues_issueAll, List.zipIdx_map_snd]
    exact List.pairwise_lt_range'
  latest_eq channel := latest_issueAll none channels channel

namespace Ledger

variable {t : Tickets κ} {issues : List (κ × Nat)} (h : t.Ledger issues)
include h

/-- The answer to a ticket is accepted until a later one is issued for its channel. -/
theorem accept_iff_last {before later : List (κ × Nat)} {channel : κ} {ticket : Nat}
    (hsplit : issues = before ++ (channel, ticket) :: later) :
    t.accept channel ticket = true ↔ ∀ p ∈ later, p.1 ≠ channel := by
  rw [accept_iff, h.latest_eq, ← lastOf?_eq_none, hsplit, List.append_cons, lastOf?_append, lastOf?_append]
  have hown : lastOf? channel [(channel, ticket)] = some ticket := by simp [lastOf?]
  rw [hown, Option.some_or]
  cases hlater : lastOf? channel later with
  | none => simp
  | some last =>
    have hlt : ticket < last := by
      have hascending := h.ascending
      rw [hsplit, List.map_append, List.map_cons] at hascending
      exact List.rel_of_pairwise_cons (List.pairwise_append.mp hascending).2.1
        (List.mem_map_of_mem (mem_of_lastOf? hlater))
    simpa using hlt

/-- Of a channel's tickets one is current. -/
theorem existsUnique_accepted {p : κ × Nat} (hp : p ∈ issues) :
    ∃! ticket : Nat, (p.1, ticket) ∈ issues ∧ t.accept p.1 ticket = true := by
  obtain ⟨last, hlast⟩ : ∃ last, lastOf? p.1 issues = some last :=
    Option.ne_none_iff_exists'.mp fun hnone => lastOf?_eq_none.mp hnone p hp rfl
  have hlatest : t.latest p.1 = last := by rw [h.latest_eq, hlast, Option.getD_some]
  refine ⟨last, ⟨mem_of_lastOf? hlast, ?_⟩, fun ticket ⟨hmem, haccept⟩ => ?_⟩
  · exact accept_iff.mpr (Int.ofNat_le.mpr (Nat.le_of_eq hlatest))
  · obtain ⟨before, later, hsplit⟩ := List.append_of_mem hmem
    have hnone := lastOf?_eq_none.mpr ((h.accept_iff_last hsplit).mp haccept)
    rw [hsplit, List.append_cons, lastOf?_append, hnone, lastOf?_append] at hlast
    simpa [lastOf?] using hlast

end Ledger

/-- How tickets judge answers, when these were issued, and in this order. -/
structure Judges (t : Tickets κ) (issues : List (κ × Nat)) : Prop where
  ascending : (issues.map Prod.snd).Pairwise (· < ·)
  /-- The answer to a ticket is accepted until a later one is issued for its channel. -/
  accepted : ∀ before channel (ticket : Nat) later, issues = before ++ (channel, ticket) :: later →
    (t.accept channel ticket = true ↔ ∀ p ∈ later, p.1 ≠ channel)
  /-- Of a channel's tickets one is current. -/
  current : ∀ p ∈ issues, ∃! ticket : Nat, (p.1, ticket) ∈ issues ∧ t.accept p.1 ticket = true
  /-- What is issued for other channels does not matter, whatever the number. -/
  apart : ∀ channel (ticket : Int) more, channel ∉ more →
    (t.issueAll more).2.accept channel ticket = t.accept channel ticket
  stale_forever : ∀ channel (ticket : Int), t.accept channel ticket = false →
    ∀ more, (t.issueAll more).2.accept channel ticket = false
  monotone : ∀ channel (ticket later : Int), ticket ≤ later → t.accept channel ticket = true →
    t.accept channel later = true
  /-- Refused is what is below the last ticket of the channel; before its first, what is below zero. -/
  refused : ∀ channel (ticket : Int),
    t.accept channel ticket = false ↔ ticket < ((lastOf? channel issues).getD 0 : Nat)

/-- However tickets are issued, from the first on, each channel's answers are judged by its last one. -/
theorem judges_issueAll (channels : List κ) :
    ((none : Tickets κ).issueAll channels).1.map Prod.fst = channels ∧
      ((none : Tickets κ).issueAll channels).2.Judges ((none : Tickets κ).issueAll channels).1 := by
  have hledger := ledger_issueAll channels
  have hcounted := ((counted_none (κ := κ)).issueAll channels).1
  refine ⟨channels_issueAll none channels, ?_⟩
  exact {
    ascending := hledger.ascending
    accepted := fun before channel ticket later hsplit => hledger.accept_iff_last hsplit
    current := fun p hp => hledger.existsUnique_accepted hp
    apart := fun channel ticket more hnotMem => by rw [accept, latest_issueAll_of_notMem _ hnotMem, ← accept]
    stale_forever := fun channel ticket hstale more => by
      rw [refuses_iff] at hstale ⊢
      exact Int.lt_of_lt_of_le hstale (Int.ofNat_le.mpr ((hcounted.issueAll more).2 channel))
    monotone := fun channel ticket later hle haccept => by
      rw [accept_iff] at haccept ⊢
      exact Int.le_trans haccept hle
    refused := fun channel ticket => by rw [refuses_iff, hledger.latest_eq] }

example :
    let t := ((none : Tickets String).issueAll ["search", "query", "search"]).2
    t.accept "search" 1 = false ∧ t.accept "query" 2 = true ∧ t.accept "search" 3 = true := by decide

end CoqConsole.Tickets
