/-
# Paging through the events (`api/routers/events.py`, `get_events`)

A client follows the log page by page: it asks for what comes after the events it has, takes the
page, and asks again.  Every request lists the files anew, while appends and rotations go on.  The
index a client asks by counts over all files, so a rotation between two requests moves nothing; one
in the middle of a listing does harm, as it does to a single listing.  Short of that, the client has
every event once and in order, with none left out, and a page that is not full brings it up to where
the log was when the listing started (`paging_delivers_once`).
-/
import AegisShield.Audit.Listing

namespace AegisShield

open Lib

/-! ## 1. Requests -/

/-- The response of `get_events`. -/
structure EventsPage (R : Runtime) where
  total : Nat
  after : Nat
  count : Nat
  events : List R.Value

/-- The end of `get_events`, once the events are collected. -/
def eventsPage {R : Runtime} (allEvents : List R.Value) (after limit : Nat) : EventsPage R :=
  let page := (allEvents.drop after).take limit
  ⟨allEvents.length, after, page.length, page⟩

/-- A log in use, and a client that pages through it. -/
structure Paging (R : Runtime) where
  listing : Listing R
  /-- The events the client has. -/
  seen : List R.Value
  /-- The index it asks by. -/
  after : Nat

/-- A step: a call on the log, a step of the listing behind a request, or the response to it. -/
inductive PagingOp (R : Runtime)
  | listing (op : ListingOp R)
  | respond (limit : Nat)

section Paging

variable {R : Runtime}

/-- The client takes a page. -/
def Paging.receive (y : Paging R) (page : EventsPage R) : Paging R where
  listing := { y.listing with phase := .idle }
  seen := y.seen ++ page.events
  after := y.after + page.count

/-- One step.  A request whose listing failed is answered with an error. -/
def PagingOp.step (order : List String → List String) (clock : Nat → Nat) (y : Paging R) :
    PagingOp R → Paging R
  | .listing op => { y with listing := op.step order clock y.listing }
  | .respond limit =>
    match y.listing.phase with
    | .done (.ok events) => y.receive (eventsPage events y.after limit)
    | .done (.error _) => { y with listing := { y.listing with phase := .idle } }
    | _ => y

/-- A new log, and a client that has nothing yet. -/
def Paging.start (R : Runtime) (stem suffix : String) (maxBytes : Nat) : Paging R :=
  ⟨Listing.start R stem suffix maxBytes, [], 0⟩

/-- The condition on a step: it does not rotate the log during a listing. -/
def PagingOp.Calm (y : Paging R) : PagingOp R → Prop
  | .listing op => op.Calm y.listing
  | .respond _ => True

/-- **The client has the beginning of the history**, each event once and in order.  When a listing
has ended, a page short of its limit leaves the client with all that was there at its start. -/
structure Paging.Delivers (order : List String → List String) (clock : Nat → Nat) (y : Paging R) :
    Prop where
  history : ∃ history, y.listing.logging.listed order = .ok history ∧ y.seen <+: history
  index : y.after = y.seen.length
  /-- No listing fails. -/
  listed : ∀ result, y.listing.phase = .done result → ∃ events, result = .ok events
  caughtUp : ∀ events limit, y.listing.phase = .done (.ok events) →
    (eventsPage events y.after limit).count < limit → ∃ earlier, y.listing.earlier = .ok earlier ∧
      earlier <+: (PagingOp.step order clock y (.respond limit)).seen

/-! ## 2. The invariant -/

variable {stem suffix : String} {order : List String → List String}

structure Paging.Kept (stem suffix : String) (y : Paging R) : Prop where
  listing : y.listing.Kept stem suffix
  seen : y.seen <+: (segmentsOf stem suffix y.listing.logging.marks).values
  index : y.after = y.seen.length

/-- The next page behind the beginning of a history. -/
theorem prefix_page {α : Type} {seen events history : List α} (hseen : seen <+: history)
    (hevents : events <+: history) (limit : Nat) :
    seen ++ (events.drop seen.length).take limit <+: history := by
  rcases Nat.le_total seen.length events.length with hle | hle
  · obtain ⟨rest, rfl⟩ := List.prefix_of_prefix_length_le hseen hevents hle
    rw [List.drop_left]
    exact (List.prefix_append_right_inj seen).mpr (List.take_prefix limit rest) |>.trans hevents
  · rw [List.drop_of_length_le hle, List.take_nil, List.append_nil]
    exact hseen

/-- A page that is not full is the last one. -/
theorem prefix_of_short_page {α : Type} {seen events history : List α} (hseen : seen <+: history)
    (hevents : events <+: history) {limit : Nat}
    (hshort : ((events.drop seen.length).take limit).length < limit) :
    events <+: seen ++ (events.drop seen.length).take limit := by
  rcases Nat.le_total seen.length events.length with hle | hle
  · obtain ⟨rest, rfl⟩ := List.prefix_of_prefix_length_le hseen hevents hle
    rw [List.drop_left, List.length_take] at hshort
    rw [List.drop_left, List.take_of_length_le (by omega)]
  · rw [List.drop_of_length_le hle, List.take_nil, List.append_nil]
    exact List.prefix_of_prefix_length_le hevents hseen hle

/-- What a listing that has ended holds. -/
theorem Listing.Kept.ended {y : Listing R} (h : y.Kept stem suffix) {result}
    (hphase : y.phase = .done result) : ∃ earlier events, y.earlier = .ok earlier ∧
      result = .ok events ∧ earlier <+: events ∧
        events <+: (segmentsOf stem suffix y.logging.marks).values := by
  have htracks := h.tracks
  rw [Listing.Tracks, hphase] at htracks
  exact htracks

/-- **A step of the log or of the listing.** -/
theorem Paging.Kept.listingStep {y : Paging R} (h : y.Kept stem suffix) (hsuffix : suffix ≠ "")
    (horder : ∀ names, (order names).Perm names) (clock : Nat → Nat) (op : ListingOp R)
    (hcalm : op.Calm y.listing) :
    (PagingOp.step order clock y (.listing op)).Kept stem suffix := by
  cases op with
  | log op =>
    have hlisting : (ListingOp.step order clock y.listing (.log op)).Kept stem suffix :=
      h.listing.log clock op hcalm
    refine ⟨hlisting, h.seen.trans ?_, h.index⟩
    exact values_of_marks (marks_step clock y.listing.logging op)
  | names =>
    refine ⟨h.listing.names hsuffix horder clock, ?_, h.index⟩
    have hsame : (ListingOp.step order clock y.listing .names).logging = y.listing.logging := by
      simp only [ListingOp.step]
      split <;> rfl
    simp only [PagingOp.step, hsame]
    exact h.seen
  | read =>
    have hlisting : (ListingOp.step order clock y.listing .read).Kept stem suffix :=
      h.listing.read hsuffix clock
    refine ⟨hlisting, ?_, h.index⟩
    have hsame : (ListingOp.step order clock y.listing .read).logging = y.listing.logging := by
      simp only [ListingOp.step]
      split <;> rfl
    simp only [PagingOp.step, hsame]
    exact h.seen

/-- **A response.** -/
theorem Paging.Kept.respond {y : Paging R} (h : y.Kept stem suffix) (clock : Nat → Nat)
    (limit : Nat) : (PagingOp.step order clock y (.respond limit)).Kept stem suffix := by
  have hidle : Listing.Kept stem suffix { y.listing with phase := .idle } :=
    ⟨h.listing.logging, trivial⟩
  simp only [PagingOp.step]
  split
  · rename_i events hphase
    obtain ⟨-, events', -, heq, -, hprefix⟩ := h.listing.ended hphase
    obtain rfl := Except.ok.inj heq
    refine ⟨hidle, ?_, ?_⟩
    · change y.seen ++ (events.drop y.after).take limit <+: _
      rw [h.index]
      exact prefix_page h.seen hprefix limit
    · change y.after + ((events.drop y.after).take limit).length =
        (y.seen ++ (events.drop y.after).take limit).length
      rw [List.length_append, h.index]
  · exact ⟨hidle, h.seen, h.index⟩
  · exact h

/-- **The invariant is delivery.** -/
theorem Paging.Kept.delivers {y : Paging R} (h : y.Kept stem suffix) (hsuffix : suffix ≠ "")
    (horder : ∀ names, (order names).Perm names) (clock : Nat → Nat) : y.Delivers order clock where
  history := ⟨_, h.listing.logging.listed hsuffix horder, h.seen⟩
  index := h.index
  listed result hphase := by
    obtain ⟨-, events, -, hresult, -⟩ := h.listing.ended hphase
    exact ⟨events, hresult⟩
  caughtUp events limit hphase hshort := by
    obtain ⟨earlier, events', hearlier, heq, hpre, hprefix⟩ := h.listing.ended hphase
    obtain rfl := Except.ok.inj heq
    have hseen : (PagingOp.step order clock y (.respond limit)).seen =
        y.seen ++ (events.drop y.seen.length).take limit := by
      simp only [PagingOp.step, hphase, Paging.receive, eventsPage, h.index]
    have hcount : ((events.drop y.seen.length).take limit).length < limit := by
      rw [← h.index]
      exact hshort
    rw [hseen]
    exact ⟨earlier, hearlier, hpre.trans (prefix_of_short_page h.seen hprefix hcount)⟩

/-! ## 3. Main result -/

/-- **Paging delivers every event once and in order**, in any interleaving with appends, rotations
and reopenings in which no append rotates the log in the middle of a listing. -/
theorem paging_delivers_once (hsuffix : suffix ≠ "") (horder : ∀ names, (order names).Perm names)
    (maxBytes : Nat) (clock : Nat → Nat) {ops : List (PagingOp R)}
    (hcalm : Along (PagingOp.step order clock) PagingOp.Calm (Paging.start R stem suffix maxBytes)
      ops) {pre : List (PagingOp R)} (hpre : pre <+: ops) :
    (pre.foldl (PagingOp.step order clock) (Paging.start R stem suffix maxBytes)).Delivers order
      clock := by
  have hstart : (Paging.start R stem suffix maxBytes).Kept stem suffix :=
    ⟨⟨Logging.Kept.start maxBytes, trivial⟩, List.nil_prefix, rfl⟩
  have hstep : ∀ (y : Paging R) (o : PagingOp R), o.Calm y → Paging.Kept stem suffix y →
      Paging.Kept stem suffix (PagingOp.step order clock y o) := by
    intro y o ho h
    cases o with
    | listing op => exact h.listingStep hsuffix horder clock op ho
    | respond limit => exact h.respond clock limit
  exact (run_along_initial hstep hstart hcalm hpre).delivers hsuffix horder clock

end Paging

/-- Two events, of which the second comes in the middle of the first listing. -/
theorem paging_delivers_once_two_pages :
    ([.listing (.log (plainEvent "a")), .listing .names, .listing (.log (plainEvent "b")),
      .listing .read, .respond 1, .listing .names, .listing .read, .respond 1].foldl
        (PagingOp.step id id) (Paging.start Runtime.reference "audit" ".jsonl" 0)).Delivers id id := by
  refine paging_delivers_once (by decide) (fun names => List.Perm.refl names) 0 id ?_
    List.prefix_rfl
  exact ⟨fun _ _ _ => rfl, trivial, fun _ _ _ => rfl, trivial, trivial, trivial, trivial, trivial,
    trivial⟩

end AegisShield
