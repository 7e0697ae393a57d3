import Polyglot.Proofs.Rosters

/-!
How long children live that nobody needs. A child that was claimed for some code has its full
lifetime back, each rebuild that succeeds without claiming it takes one off, and the one that finds
no more than one left closes it. Main statement: along every run of calls, a child that has been
claimed is owned as long as fewer rebuilds have succeeded since than its lifetime says, where a
lifetime of zero counts as one.
-/
namespace Polyglot

open Document

namespace Document

section

variable {context : Context} {first next m : Nat} {empty d : Document} {id : Identity}
  {t : List (Kind × Identity)}

/-- Whoever was chosen has a full lifetime, and all others have what they had. -/
theorem Roster.allots_iff (h : Roster context first empty t next d) :
    d.Allots id m ↔
      if id ∈ t.map (·.2) then m = context.config.lifetime else empty.Allots id m := by
  by_cases htaken : id ∈ t.map (·.2)
  · rw [if_pos htaken]
    obtain ⟨x, hx, hid, _, hlifetime⟩ := h.taken id htaken
    constructor
    · rintro ⟨c, hc, hsame, rfl⟩
      rw [h.tended.steady.self.number_injective hc (List.mem_append_left _ hx)
        (congrArg Identity.number (hsame.trans hid.symm))]
      exact hlifetime
    · rintro rfl
      exact ⟨x, List.mem_append_left _ hx, hid, hlifetime⟩
  · rw [if_neg htaken]
    constructor
    · rintro ⟨c, hc, rfl, rfl⟩
      rcases h.left c hc htaken with ⟨_, hparked⟩ | ⟨_, _, hchild⟩
      · exact ⟨c, List.mem_append_right _ hparked, rfl, rfl⟩
      · exact ⟨c, List.mem_append_left _ hchild, rfl, rfl⟩
    · rintro ⟨c, hc, rfl, rfl⟩
      exact ⟨c, h.stays c hc htaken, rfl, rfl⟩

/-- At the end of a rebuild, whoever was not chosen loses one. -/
theorem Roster.allots_rebuilt_iff (h : Roster context first empty t next d) :
    d.closeExpired.emitChanged.drained.Allots id m ↔
      if id ∈ t.map (·.2) then d.Allots id m else 0 < m ∧ d.Allots id (m + 1) := by
  have haged : ∀ p : Document, p.aged.id = p.id := fun p =>
    id_eq_of_nature_eq (nature_withLifetime p _)
  constructor
  · rintro ⟨x, hx, rfl, rfl⟩
    rcases List.mem_append.mp hx with hx | hx
    · obtain ⟨c, hc, hstays, rfl⟩ := mem_children_rebuilt.mp hx
      have huses := h.uses_iff (List.mem_append_left _ hc)
      rw [id_stayed, lifetime_stayed]
      by_cases hidle : c.key ∈ d.info.idle
      · have hmore := isStaying_iff.mp hstays hidle
        rw [if_neg fun htaken => (huses.mpr htaken).2 hidle, if_pos hidle]
        exact ⟨by omega, c, List.mem_append_left _ hc, rfl, by omega⟩
      · rw [if_pos (huses.mp ⟨hc, hidle⟩), if_neg hidle]
        exact ⟨c, List.mem_append_left _ hc, rfl, rfl⟩
    · obtain ⟨p, hp, hstays, rfl⟩ := mem_parked_rebuilt.mp hx
      have hmore := isExpiring_eq_false.mp hstays
      have huses := h.uses_iff (List.mem_append_right _ hp)
      rw [haged, lifetime_aged, if_neg fun htaken =>
        h.tended.steady.self.not_mem_parked (huses.mpr htaken).1 hp]
      exact ⟨by omega, p, List.mem_append_right _ hp, rfl, by omega⟩
  · by_cases htaken : id ∈ t.map (·.2)
    · rw [if_pos htaken]
      rintro ⟨c, hc, rfl, rfl⟩
      obtain ⟨hchild, hidle⟩ := (h.uses_iff hc).mpr htaken
      have hstays := isStaying_iff.mpr fun hmem => absurd hmem hidle
      refine ⟨stayed d.info.idle c, List.mem_append_left _ (mem_children_rebuilt.mpr
        ⟨c, hchild, hstays, rfl⟩), id_stayed _ c, ?_⟩
      rw [lifetime_stayed, if_neg hidle]
    · rw [if_neg htaken]
      rintro ⟨hpos, c, hc, rfl, hlifetime⟩
      have hmore : 1 < c.info.lifetime := by omega
      rcases h.left c hc htaken with ⟨hparked, _⟩ | ⟨hchild, hidle, _⟩
      · refine ⟨c.aged, List.mem_append_right _ (mem_parked_rebuilt.mpr
          ⟨c, hparked, isExpiring_eq_false.mpr hmore, rfl⟩), haged c, ?_⟩
        rw [lifetime_aged, hlifetime, Nat.add_sub_cancel]
      · have hstays := isStaying_iff.mpr fun _ : c.key ∈ d.info.idle => hmore
        refine ⟨stayed d.info.idle c, List.mem_append_left _ (mem_children_rebuilt.mpr
          ⟨c, hchild, hstays, rfl⟩), id_stayed _ c, ?_⟩
        rw [lifetime_stayed, if_pos hidle, hlifetime, Nat.add_sub_cancel]

/-! Closing. -/

/-- No child of a document is a root. -/
def Kin (d : Document) : Prop := ∀ id ∈ d.brood, id.isRoot = false

theorem takersLaw_kin (hapart : context.SiblingsApart) :
    TakersLaw context fun _ next d => d.Tended context next ∧ d.Kin where
  lose h := ⟨h.1.mono (Nat.le_succ _), h.2⟩
  give editor below origin f _ _ _ _ _ child hkind hc h := by
    obtain ⟨grown, htakes⟩ := h.1.takesBack hapart editor below origin hkind hc
    refine ⟨h.1.giveFragment hapart editor below origin hkind, ?_⟩
    intro id hid
    obtain ⟨x, hx, rfl⟩ := mem_brood.mp hid
    rcases htakes.mem_offspring.mp hx with rfl | ⟨hold, _⟩
    · rw [htakes.id_eq]
      rcases h.1.steady.chooseChild_cases hapart hkind hc with
        ⟨y, hy, lifetime, rfl, _⟩ | ⟨⟨uri, rfl⟩, _⟩
      · rw [id_eq_of_nature_eq (nature_withLifetime y lifetime)]
        exact h.2 y.id (mem_brood_of_mem hy)
      · rfl
    · exact h.2 x.id (mem_brood_of_mem hold)
  push block h := by
    refine ⟨h.1.push block, ?_⟩
    rw [Kin, brood, Document.push, offspring_modify]
    exact h.2

theorem kin_of_reachable (hapart : context.SiblingsApart) (h : Reachable context next d) :
    d.Kin := by
  induction h with
  | root => exact fun id hid => (List.not_mem_nil hid).elim
  | wait _ _ ih => exact ih
  | @append n e levels text editor origin shift h ih =>
    exact ((takersLaw_kin hapart).appendText editor levels origin shift text (t := [])
      ⟨tended_of_reachable hapart h, ih⟩).2
  | clear _ ih => exact fun id hid => ih id (mem_brood_clear.mp hid)
  | @closeExpired n e _ ih => exact fun id hid => ih id (brood_closeExpired_subset e hid)
  | @emitChanged n e _ ih => exact fun id hid => ih id (brood_emitChanged e ▸ hid)
  | @dispose n e _ ih =>
    intro id hid
    obtain ⟨info, children, parked⟩ := e
    rw [dispose] at hid
    split at hid
    · exact ih id hid
    · exact (List.not_mem_nil hid).elim
  | @drained n e _ ih => exact fun id hid => ih id (brood_drained e ▸ hid)

theorem mem_outbox_emitChanged_of_mem {event : Event} (h : event ∈ d.outbox) :
    event ∈ d.emitChanged.outbox := by
  obtain ⟨info, children, parked⟩ := d
  rw [outbox_emitChanged, List.mem_append]
  left
  unfold noteChange
  simp only
  split
  · exact h
  · exact List.mem_append_left _ h

theorem closed_mem_outbox_dispose {c : Document} (hlive : c.isDisposed = false)
    (hkin : c.id.isRoot = false) : c.id.event .closed ∈ c.dispose.outbox := by
  obtain ⟨info, children, parked⟩ := c
  have hshown : (if info.id.isRoot then [] else [info.id.event .closed]) =
      [info.id.event .closed] := if_neg (by rw [show info.id.isRoot = false from hkin]; decide)
  rw [outbox_dispose (show info.disposed = false from hlive), hshown, List.mem_append]
  exact Or.inr (List.mem_singleton_self _)

/-- Whoever has at most one left and was not chosen tells of its end. -/
theorem Roster.closed_of_expiring (h : Roster context first empty t next d) {c : Document}
    (hc : c ∈ d.offspring) (hkin : c.id.isRoot = false) (huntaken : c.id ∉ t.map (·.2))
    (hexpiring : c.info.lifetime ≤ 1) :
    c.id.event .closed ∈ d.closeExpired.emitChanged.outbox := by
  have hlive : c.isDisposed = false := h.tended.steady.self.live c hc
  have hleft := h.left c hc huntaken
  obtain ⟨info, children, parked⟩ := d
  have hmem : c ∈ expired info children parked := by
    rw [expired, List.mem_append, List.mem_filter, List.mem_filter]
    rcases hleft with ⟨hparked, _⟩ | ⟨hchild, hidle, _⟩
    · exact Or.inr ⟨hparked, decide_eq_true hexpiring⟩
    · refine Or.inl ⟨hchild, ?_⟩
      rw [Bool.and_eq_true]
      exact ⟨List.contains_iff_mem.mpr hidle, decide_eq_true hexpiring⟩
  apply mem_outbox_emitChanged_of_mem
  rw [outbox_closeExpired, List.mem_append, mem_outboxes]
  exact Or.inr ⟨c.dispose, List.mem_append_left _ (List.mem_map_of_mem hmem),
    closed_mem_outbox_dispose hlive hkin⟩

end

end Document

/-! One call. -/

namespace Session

variable {s u : Session} {call : Call} {next n m : Nat} {id : Identity}

/-- Whether a call succeeds or not, the children that it claims have a full lifetime. -/
theorem allots_answer_claimed (hapart : s.context.SiblingsApart)
    (hreach : Reachable s.context next s.root) (hclaims : id ∈ (s.claims call next).map (·.2)) :
    (s.answer call next).1.root.Allots id m ↔ m = s.context.config.lifetime := by
  cases hanswer : s.answer call next with
  | mk u rest =>
    obtain ⟨n, result⟩ := rest
    cases result with
    | error e =>
      rcases roster_of_answer_error hapart hreach hanswer with ⟨_, _, hnone⟩ | ⟨d, hroot, hroster⟩
      · rw [hnone] at hclaims
        exact (List.not_mem_nil hclaims).elim
      · rw [hroot, allots_drained, hroster.allots_iff, if_pos hclaims]
    | ok _ =>
      obtain ⟨_, d, hroot, hroster, _⟩ := roster_of_answer_ok hapart hreach hanswer
      rw [hroot, hroster.allots_rebuilt_iff, if_pos hclaims, hroster.allots_iff, if_pos hclaims]

section

variable (hapart : s.context.SiblingsApart) (hreach : Reachable s.context next s.root)
  (hclaims : id ∉ (s.claims call next).map (·.2))

include hapart hreach hclaims

theorem allots_answer_error {e : UpdateError} (h : s.answer call next = (u, n, .error e)) :
    u.root.Allots id m ↔ s.root.Allots id m := by
  rcases roster_of_answer_error hapart hreach h with ⟨hroot, _⟩ | ⟨d, hroot, hroster⟩
  · rw [hroot]
  · rw [hroot, allots_drained, hroster.allots_iff, if_neg hclaims, allots_clear]

theorem allots_answer_ok (h : s.answer call next = (u, n, .ok ())) :
    u.root.Allots id m ↔ 0 < m ∧ s.root.Allots id (m + 1) := by
  obtain ⟨_, d, hroot, hroster, _⟩ := roster_of_answer_ok hapart hreach h
  rw [hroot, hroster.allots_rebuilt_iff, if_neg hclaims, hroster.allots_iff, if_neg hclaims,
    allots_clear]

/-- A child that has no more than one left is told to be closed. -/
theorem closed_of_answer_ok (h : s.answer call next = (u, n, .ok ())) (hallots : s.root.Allots id m)
    (hm : m ≤ 1) : id.event .closed ∈ (s.met call).told call.cells (next + call.pause) := by
  obtain ⟨_, d, _, hroster, happend, htold⟩ := roster_of_answer_ok hapart hreach h
  have hreach' := reachable_of_appendCells (hreach.wait (Nat.le_add_right next call.pause)) happend
  have hleft : d.Allots id m := by
    rw [hroster.allots_iff, if_neg hclaims, allots_clear]
    exact hallots
  obtain ⟨c, hc, rfl, rfl⟩ := hleft
  rw [htold]
  exact hroster.closed_of_expiring hc
    (kin_of_reachable hapart hreach' c.id (mem_brood_of_mem hc)) hclaims hm

end

end Session

/-! Runs. -/

/-- Who watches a session counts for each child that was claimed how many rebuilds have succeeded
since. -/
structure Watch where
  session : Session
  next : Nat
  idle : Identity → Option Nat

/-- At first nothing was seen of any child. -/
def Session.watch (next : Nat) (s : Session) : Watch where
  session := s
  next := next
  idle := fun _ => none

namespace Watch

/-- The children of the root, in the tree or parked. -/
def owned (w : Watch) : List Identity := w.session.root.brood

def claimed (w : Watch) (call : Call) : List Identity := (w.session.claims call w.next).map (·.2)

def Succeeds (w : Watch) (call : Call) : Prop := (w.session.answer call w.next).2.2 = .ok ()

/-- The events that a call lets out of the root. -/
def told (w : Watch) (call : Call) : List Event :=
  (w.session.met call).told call.cells (w.next + call.pause)

def step (w : Watch) (call : Call) : Watch where
  session := (w.session.answer call w.next).1
  next := (w.session.answer call w.next).2.1
  idle := fun id =>
    if id ∈ w.claimed call then some 0
    else
      match (w.session.answer call w.next).2.2 with
      | .ok () => (w.idle id).map (· + 1)
      | .error _ => w.idle id

def run (w : Watch) (calls : List Call) : Watch := calls.foldl step w

/-- What is counted fits the lifetimes in the tree, and who was not claimed was there before. -/
structure Fits (context : Context) (before : List Identity) (w : Watch) : Prop where
  context_eq : w.session.context = context
  reach : Reachable context w.next w.session.root
  allots : ∀ {id k}, w.idle id = some k → ∀ m, w.session.root.Allots id m ↔
    k < max 1 context.config.lifetime ∧ m = context.config.lifetime - k
  unseen : ∀ id ∈ w.owned, w.idle id = none → id ∈ before

section

variable {context : Context} {before : List Identity} {w : Watch} {call : Call} {id : Identity}
  {k : Nat}

theorem mem_owned : id ∈ w.owned ↔ ∃ m, w.session.root.Allots id m := by
  rw [owned]
  exact mem_brood_iff_allots

theorem idle_step_claimed (h : id ∈ w.claimed call) : (w.step call).idle id = some 0 := if_pos h

theorem idle_step_error {u : Session} {n : Nat} {e : UpdateError} (h : id ∉ w.claimed call)
    (hanswer : w.session.answer call w.next = (u, n, .error e)) :
    (w.step call).idle id = w.idle id := by
  simp only [step, if_neg h, hanswer]

theorem idle_step_ok {u : Session} {n : Nat} (h : id ∉ w.claimed call)
    (hanswer : w.session.answer call w.next = (u, n, .ok ())) :
    (w.step call).idle id = (w.idle id).map (· + 1) := by
  simp only [step, if_neg h, hanswer]

/-- One call keeps the count. -/
theorem Fits.step (hapart : context.SiblingsApart) (h : w.Fits context before) (call : Call) :
    (w.step call).Fits context before := by
  obtain ⟨rfl, hreach, hallots, hunseen⟩ := h
  have hcontext : (w.step call).session.context = w.session.context :=
    Session.context_answer call w.next w.session
  refine ⟨hcontext, w.session.reachable_answer hreach call, ?_, ?_⟩
  · intro id k hk m
    by_cases hclaimed : id ∈ w.claimed call
    · rw [idle_step_claimed hclaimed] at hk
      cases hk
      rw [step, Session.allots_answer_claimed hapart hreach hclaimed]
      omega
    · rw [step]
      cases hanswer : w.session.answer call w.next with
      | mk u rest =>
        obtain ⟨n, result⟩ := rest
        cases result with
        | error e =>
          rw [idle_step_error hclaimed hanswer] at hk
          rw [Session.allots_answer_error hapart hreach hclaimed hanswer]
          exact hallots hk m
        | ok _ =>
          rw [idle_step_ok hclaimed hanswer, Option.map_eq_some_iff] at hk
          obtain ⟨k, hk, rfl⟩ := hk
          rw [Session.allots_answer_ok hapart hreach hclaimed hanswer, hallots hk]
          omega
  · intro id hid hnone
    have hclaimed : id ∉ w.claimed call := by
      intro hclaimed
      rw [idle_step_claimed hclaimed] at hnone
      cases hnone
    obtain ⟨m, hm⟩ := mem_owned.mp hid
    rw [step] at hm
    cases hanswer : w.session.answer call w.next with
    | mk u rest =>
      obtain ⟨n, result⟩ := rest
      rw [hanswer] at hm
      cases result with
      | error e =>
        rw [idle_step_error hclaimed hanswer] at hnone
        rw [Session.allots_answer_error hapart hreach hclaimed hanswer] at hm
        exact hunseen id (mem_owned.mpr ⟨m, hm⟩) hnone
      | ok _ =>
        rw [idle_step_ok hclaimed hanswer, Option.map_eq_none_iff] at hnone
        rw [Session.allots_answer_ok hapart hreach hclaimed hanswer] at hm
        exact hunseen id (mem_owned.mpr ⟨m + 1, hm.2⟩) hnone

theorem Fits.run (hapart : context.SiblingsApart) (h : w.Fits context before) (calls : List Call) :
    (w.run calls).Fits context before := by
  induction calls generalizing w with
  | nil => exact h
  | cons call rest ih => exact ih (h.step hapart call)

theorem Fits.mem_owned_iff (h : w.Fits context before) (hidle : w.idle id = some k) :
    id ∈ w.owned ↔ k < max 1 context.config.lifetime := by
  rw [mem_owned]
  constructor
  · rintro ⟨m, hm⟩
    exact ((h.allots hidle m).mp hm).1
  · intro hk
    exact ⟨_, (h.allots hidle _).mpr ⟨hk, rfl⟩⟩

/-- A child leaves with the rebuild that completes its lifetime. -/
theorem Fits.leaves_iff (hapart : context.SiblingsApart) (h : w.Fits context before)
    (hidle : w.idle id = some k) (call : Call) :
    id ∈ w.owned ∧ id ∉ (w.step call).owned ↔
      w.Succeeds call ∧ id ∉ w.claimed call ∧ k + 1 = max 1 context.config.lifetime := by
  have howned := h.mem_owned_iff hidle
  have hstep := h.step hapart call
  by_cases hclaimed : id ∈ w.claimed call
  · have hstays := hstep.mem_owned_iff (idle_step_claimed hclaimed)
    rw [hstays]
    constructor
    · rintro ⟨_, hgone⟩
      omega
    · rintro ⟨_, hunclaimed, _⟩
      exact absurd hclaimed hunclaimed
  · rw [Succeeds]
    cases hanswer : w.session.answer call w.next with
    | mk u rest =>
      obtain ⟨n, result⟩ := rest
      cases result with
      | error e =>
        rw [howned, hstep.mem_owned_iff ((idle_step_error hclaimed hanswer).trans hidle)]
        constructor
        · rintro ⟨hlasts, hgone⟩
          exact absurd hlasts hgone
        · rintro ⟨hfailed, _⟩
          cases hfailed
      | ok _ =>
        have hcount : (w.step call).idle id = some (k + 1) := by
          rw [idle_step_ok hclaimed hanswer, hidle]
          rfl
        rw [howned, hstep.mem_owned_iff hcount]
        constructor
        · intro hlast
          exact ⟨rfl, hclaimed, by omega⟩
        · rintro ⟨_, _, hlast⟩
          omega

/-- The rebuild that completes the lifetime of a child closes it. -/
theorem Fits.closed (hapart : context.SiblingsApart) (h : w.Fits context before)
    (hidle : w.idle id = some k) (hsucceeds : w.Succeeds call) (hclaimed : id ∉ w.claimed call)
    (hlast : k + 1 = max 1 context.config.lifetime) : id.event .closed ∈ w.told call := by
  obtain ⟨rfl, hreach, hallots, _⟩ := h
  have hleft : w.session.root.Allots id (w.session.context.config.lifetime - k) :=
    (hallots hidle _).mpr ⟨by omega, rfl⟩
  refine Session.closed_of_answer_ok hapart hreach hclaimed (Prod.ext rfl (Prod.ext rfl hsucceeds))
    hleft ?_
  omega

end

end Watch

/-- Along every run of calls, from any tree that can arise, a child that was claimed is owned as
long as fewer rebuilds have succeeded since then than its lifetime says, where a lifetime of zero
counts as one. It is closed by the rebuild that completes this number, and by no other, and each
claim starts the count again. Whoever was never claimed in the run was there before. -/
theorem idle_children_live_their_lifetime {s : Session} {next : Nat}
    (hapart : s.context.SiblingsApart) (hreach : Reachable s.context next s.root)
    (calls : List Call) :
    let w := (s.watch next).run calls
    (∀ id ∈ w.owned, w.idle id = none → id ∈ s.root.brood) ∧
    (∀ call, ∀ id ∈ w.claimed call,
      (w.step call).idle id = some 0 ∧ id ∈ (w.step call).owned) ∧
    ∀ id k, w.idle id = some k →
      (id ∈ w.owned ↔ k < max 1 s.context.config.lifetime) ∧
      ∀ call,
        (id ∈ w.owned ∧ id ∉ (w.step call).owned ↔
          w.Succeeds call ∧ id ∉ w.claimed call ∧ k + 1 = max 1 s.context.config.lifetime) ∧
        (id ∈ w.owned ∧ id ∉ (w.step call).owned → id.event .closed ∈ w.told call) := by
  intro w
  have hstart : (s.watch next).Fits s.context s.root.brood :=
    ⟨rfl, hreach, fun hidle => (Option.some_ne_none _ hidle.symm).elim, fun id hid _ => hid⟩
  have hfits : w.Fits s.context s.root.brood := hstart.run hapart calls
  refine ⟨hfits.unseen, ?_, ?_⟩
  · intro call id hclaimed
    have hidle := Watch.idle_step_claimed hclaimed
    exact ⟨hidle, ((hfits.step hapart call).mem_owned_iff hidle).mpr (by omega)⟩
  · intro id k hidle
    refine ⟨hfits.mem_owned_iff hidle, ?_⟩
    intro call
    have hleaves := hfits.leaves_iff hapart hidle call
    refine ⟨hleaves, ?_⟩
    intro hgone
    obtain ⟨hsucceeds, hclaimed, hlast⟩ := hleaves.mp hgone
    exact hfits.closed hapart hidle hsucceeds hclaimed hlast

/-- Code for a child, a call while somebody looks at the tree, and a rebuild without code. -/
def lull : List Call :=
  [{ pause := 0, cells := shortCells }, { pause := 3, cells := [], held := true },
    { pause := 0, cells := [] }]

/-- With a lifetime of two, the child is still there, and the next rebuild without code closes
it. -/
theorem idle_children_live_their_lifetime_lull :
    ∃ id, ((briefSession.watch 1).run lull).owned = [id] ∧
      ((briefSession.watch 1).run lull).idle id = some 1 ∧
      id ∉ (((briefSession.watch 1).run lull).step { pause := 0, cells := [] }).owned ∧
      id.event .closed ∈ ((briefSession.watch 1).run lull).told { pause := 0, cells := [] } := by
  have hcounts : ((briefSession.watch 1).run lull).owned.map
      ((briefSession.watch 1).run lull).idle = [some 1] := by decide +kernel
  have hsucceeds : ((briefSession.watch 1).run lull).Succeeds { pause := 0, cells := [] } := by
    rw [Watch.Succeeds]
    decide +kernel
  have hclaimed : ((briefSession.watch 1).run lull).claimed { pause := 0, cells := [] } = [] := by
    decide +kernel
  obtain ⟨id, hid, hidle⟩ := List.map_eq_singleton_iff.mp hcounts
  obtain ⟨_, _, hlives⟩ := idle_children_live_their_lifetime (s := briefSession)
    (show briefSession.context.SiblingsApart from siblingsApart_nestedSession)
    (Reachable.root "python" _ "py" 0) lull
  obtain ⟨_, hcall⟩ := hlives id 1 hidle
  obtain ⟨hleaves, hcloses⟩ := hcall { pause := 0, cells := [] }
  have hgone := hleaves.mpr ⟨hsucceeds, by rw [hclaimed]; exact List.not_mem_nil, rfl⟩
  exact ⟨id, hid, hidle, hgone.2, hcloses hgone⟩

end Polyglot
