import CoqConsole.Proofs.Buffer.Scenes
import CoqConsole.Proofs.Progress
import CoqConsole.Proofs.Session.Upkeep

/-!
# How a text is painted

New progress replaces all marks of one namespace. They are one for each range that is given, in an order of their own, so
neither the order of the ranges nor what was painted before makes a difference. Nothing else of the buffer changes, and
nobody hears of it.

* `Painted` : what a buffer looks like afterwards; `exists_painted`;
* `Discreet`, `discreet_of_apply` : what stays as it was, whatever is given;
* `Desk.Paints`, `Desk.paints_hear` : what comes of progress at a desk, and that it changes nothing if it is refused;
* `progress_painted` : all of this.
-/

namespace CoqConsole

namespace Progress

open Buffer (Scene)

variable {κ : Type}

/-! ## What is painted -/

theorem Given.IsProper.bounds {g : Given} (hg : g.IsProper) :
    ∀ given ∈ g.ranges, ∃ start stop, Bounds given.2 start stop := by
  intro given hgiven
  obtain ⟨entry, hentry, hmem⟩ := List.mem_flatMap.mp hgiven
  obtain ⟨range, hrange, rfl⟩ := List.mem_map.mp hmem
  exact (hg entry hentry).2 range hrange

theorem exists_given_of_mem {e : Encoding} {lines : List String} {given : List (String × Json)} {ps : List Patch}
    (h : List.Forall₂ (Reads e lines) given ps) {p : Patch} (hp : p ∈ ps) : ∃ x ∈ given, Reads e lines x p := by
  induction h with
  | nil => cases hp
  | @cons x q _ _ hread _ ih =>
    rcases List.mem_cons.mp hp with rfl | hp
    · exact ⟨x, List.mem_cons_self, hread⟩
    · obtain ⟨x', hx', hread'⟩ := ih hp
      exact ⟨x', List.mem_cons_of_mem _ hx', hread'⟩

/-- The buffer `b'` is `b` painted with what is given: its marks are those of the patches. -/
structure Painted (e : Encoding) (ns : String) (g : Given) (b b' : Buffer κ Mark) (ps : List Patch) : Prop where
  marks : b'.marksIn ns = ps.map Patch.mark
  /-- One for each range that is given. -/
  given : ∃ qs, List.Forall₂ (Reads e b.lines) g.ranges qs ∧ ps.Perm qs
  sorted : ps.Pairwise fun p q => p.key ≤ q.key
  inside : ∀ p ∈ ps, InText b.lines p.start.row p.start.col ∧ InText b.lines p.stop.row p.stop.col
  /-- To paint it again changes nothing. -/
  again : apply b' ns g.wire (.text e.name) = .ok b'
  /-- The same ranges in any order, on the same text with any marks, come to the same. -/
  same : ∀ (c : Buffer κ Mark) (g' : Given), c.lines = b.lines → g'.IsProper → g'.ranges.Perm g.ranges →
    ∃ c', apply c ns g'.wire (.text e.name) = .ok c' ∧ c'.marksIn ns = b'.marksIn ns

theorem exists_painted (e : Encoding) (b : Buffer κ Mark) (hlines : b.lines ≠ []) (ns : String) {g : Given}
    (hg : g.IsProper) : ∃ b' ps, apply b ns g.wire (.text e.name) = .ok b' ∧ Painted e ns g b b' ps := by
  obtain ⟨qs, hreads, happly⟩ := apply_wire e b ns hg
  refine ⟨_, qs.mergeSort fun p q => decide (p ≤ q), happly, ?_⟩
  constructor
  case marks => exact b.marksIn_setMarks ns _
  case given => exact ⟨qs, hreads, List.mergeSort_perm qs _⟩
  case sorted => exact List.pairwise_mergeSort' (· ≤ ·) qs
  case inside =>
    intro p hp
    obtain ⟨x, hx, hread⟩ := exists_given_of_mem hreads (List.mem_mergeSort.mp hp)
    obtain ⟨start, stop, hbounds⟩ := hg.bounds x hx
    obtain ⟨hstart, hstop⟩ := hread.eq_locate hbounds
    rw [hstart, hstop]
    exact ⟨Cell.inText_locate e hlines start, Cell.inText_locate e hlines stop⟩
  case again =>
    obtain ⟨qs', hreads', happly'⟩ := apply_wire e (b.setMarks ns
      ((qs.mergeSort fun p q => decide (p ≤ q)).map Patch.mark)) ns hg
    obtain rfl : qs' = qs := reads_unique hreads' hreads
    rw [happly', b.setMarks_setMarks]
  case same =>
    intro c g' hsame hg' hperm
    obtain ⟨qs', hreads', happly'⟩ := apply_wire e c ns hg'
    rw [hsame] at hreads'
    refine ⟨_, happly', ?_⟩
    rw [c.marksIn_setMarks, b.marksIn_setMarks, sort_eq_of_perm (perm_of_reads hreads hreads' hperm)]

/-! ## What stays as it was -/

/-- Nothing changes but the marks of one namespace, and whoever does that to a buffer is not heard: no emission begins
and no listener is called. -/
structure Discreet (ns : String) (b b' : Buffer κ Mark) : Prop where
  rest : b' = { b with marks := b'.marks }
  others : ∀ other, other ≠ ns → b'.marksIn other = b.marksIn other
  unheard : ∃ d : Buffer.Deed κ Mark, ∀ s : Scene κ Mark, s.buffer = b → s.inControl = true →
    s.step? (.act d) = some { s with buffer := b' }

theorem discreet_setMarks (ns : String) (b : Buffer κ Mark) (marks : List Mark) : Discreet ns b (b.setMarks ns marks) where
  rest := rfl
  others _ hother := b.marksIn_setMarks_of_ne ns marks hother
  unheard := by
    refine ⟨.setMarks ns marks, ?_⟩
    rintro s rfl hcontrol
    exact Scene.step?_of_stepped (.quiet hcontrol rfl)

theorem discreet_of_apply {ns : String} {b b' : Buffer κ Mark} {highlights : List (String × Json)} {encoding : Json}
    (h : apply b ns highlights encoding = .ok b') : Discreet ns b b' := by
  obtain ⟨marks, rfl⟩ := exists_setMarks_of_apply h
  exact discreet_setMarks ns b marks

end Progress

/-! ## A desk -/

namespace Desk

variable {L : Type}

/-- What comes of progress that a desk hears of: it is refused and changes nothing, it is about no buffer that is
attached, or one buffer is painted. -/
inductive Paints (carrier : Carrier L) (d : Desk L) : Except Failure Unit × Desk L → Prop
  | refused (cause : Failure) : Paints carrier d (.error cause, d)
  | nothing : Paints carrier d (.ok (), d)
  | painted (n : Nat) {highlights : List (String × Json)} {b : Buffer Reaction Mark}
    (happly : Progress.apply (d.bufferAt n) d.session.ns highlights (carrier.named d.link) = .ok b) :
    Paints carrier d (.ok (), d.withBuffer n b)

theorem paints_hear (carrier : Carrier L) (d : Desk L) (params : Json) :
    Paints carrier d ((hear carrier params .progress).run.run d) := by
  show Paints carrier d ((hearProgress carrier params).run.run d)
  unfold hearProgress
  rw [(looks_subject params).run_bind_eq]
  rcases ((subject params).run.run d).1 with cause | _ | n
  · exact .refused cause
  · exact .nothing
  · simp only [run_bind, run_lift]
    cases Progress.ofNotification params with
    | error cause => exact .refused cause
    | ok highlights =>
      simp only [run_encoding, run_get]
      cases happly : Progress.apply (d.bufferAt n) d.session.ns highlights (carrier.named d.link) with
      | error cause => exact .refused cause
      | ok b => exact .painted n happly

end Desk

/-! ## All of this -/

namespace Progress

/-- In every buffer and for every encoding, whatever is painted there: proper ranges come to one mark each, sorted and
inside the text, and only they and the text decide what the marks are. Whatever is given, nothing but the marks of that
namespace changes and nobody hears of it; and a desk to which it is sent is left as it was if it is refused. -/
theorem progress_painted {L : Type} (e : Encoding) (b : Buffer κ Mark) (ns : String) (carrier : Carrier L) (d : Desk L)
    (params : Json) :
    (b.lines ≠ [] → ∀ g : Given, g.IsProper →
      ∃ b' ps, apply b ns g.wire (.text e.name) = .ok b' ∧ Painted e ns g b b' ps) ∧
    (∀ highlights encoding b', apply b ns highlights encoding = .ok b' → Discreet ns b b') ∧
    d.Paints carrier ((Desk.hear carrier params .progress).run.run d) :=
  ⟨fun hlines _ hg => exists_painted e b hlines ns hg, fun _ _ _ happly => discreet_of_apply happly,
    Desk.paints_hear carrier d params⟩

/-- One range is checked twice and sent once, and ends inside a character: it is painted three times, behind that
character and the least urgent first, over a mark of before. -/
theorem progress_painted_tied :
    let b : Buffer Unit Mark := (Buffer.ofText "u" "a𝒜b" "coq").setMarks "ns" [⟨.zero, .zero, "old", 0⟩]
    let range := rangeOf ⟨0, 0⟩ ⟨0, 2⟩
    let g : Given := [("checked", [range, range]), ("sent", [range])]
    let stop : Position := ⟨.whole 0, .whole 2⟩
    (b.lines ≠ [] ∧ g.IsProper) ∧ ∃ b', apply b "ns" g.wire (.text "utf-16") = .ok b' ∧
      b'.marksIn "ns" = [⟨.zero, stop, "CoqtailSent", 200⟩, ⟨.zero, stop, "CoqtailChecked", 201⟩,
        ⟨.zero, stop, "CoqtailChecked", 201⟩] ∧ b'.cursor = b.cursor := by
  intro b range g stop
  have hlines : b.lines ≠ [] := by decide
  have hbounds : ∃ start stop, Bounds range start stop := ⟨_, _, bounds_rangeOf _ _⟩
  have hproper : g.IsProper := by
    intro entry hentry
    simp only [g, List.mem_cons, List.not_mem_nil, or_false] at hentry
    rcases hentry with rfl | rfl
    · exact ⟨⟨.checked, rfl⟩, by simpa using hbounds⟩
    · exact ⟨⟨.sent, rfl⟩, by simpa using hbounds⟩
  refine ⟨⟨hlines, hproper⟩, ?_⟩
  obtain ⟨session, -⟩ : ∃ s : Session, Session.create (.object []) "ns" = .ok s := ⟨_, rfl⟩
  have hall := progress_painted .utf16 b "ns" ⟨fun _ _ l => .ok l, fun _ => .null⟩ ⟨session, [], ()⟩ .null
  obtain ⟨b', ps, happly, hpainted⟩ := hall.1 hlines g hproper
  obtain ⟨qs, hreads, hperm⟩ := hpainted.given
  let p (status : Status) : Patch := ⟨⟨0, 0⟩, ⟨0, 2⟩, status⟩
  have hread (status : Status) : Reads .utf16 b.lines (status.name, range) (p status) :=
    reads_of_bounds .utf16 b.lines status (bounds_rangeOf _ _)
  obtain rfl : qs = [p .checked, p .checked, p .sent] :=
    reads_unique hreads (.cons (hread .checked) (.cons (hread .checked) (.cons (hread .sent) .nil)))
  have hps : ps = [p .sent, p .checked, p .checked] :=
    (hperm.trans (by decide)).eq_of_pairwise' (r := fun p q : Patch => p ≤ q) hpainted.sorted (by decide)
  refine ⟨b', happly, by rw [hpainted.marks, hps]; rfl, ?_⟩
  rw [(hall.2.1 _ _ b' happly).rest]

end Progress
end CoqConsole
