import Polyglot.Proofs.Announcements

/-!
Who follows a session. The events that the root lets out tell which documents are open: those of one
path open and close it in turn, and after a rebuild that succeeds the open ones are the documents
of the tree. They also tell all that a client needs to keep copies of the buffers.
-/
namespace Polyglot

open Document Standing

/-- One rebuild, before which other trees take some numbers. -/
structure Turn where
  pause : Nat
  cells : List Cell

/-- Who follows a session: all events that the root has let out, and the copies that a client has. -/
structure Reader where
  session : Session
  next : Nat
  events : List Event
  copies : String → Option Text

namespace Reader

def start (context : Context) (policy : RetryPolicy) (language : String) (path : Url)
    (extension : String) (number : Nat) : Reader where
  session :=
    { context := context
      policy := policy
      root := Document.root context.config language path extension number }
  next := number + 1
  events := []
  copies := fun _ => none

/-- Copies are taken at the end of a rebuild that succeeds. -/
def follow (r : Reader) (turn : Turn) : Reader :=
  let told := r.session.told turn.cells (r.next + turn.pause)
  let after := r.session.update turn.cells (r.next + turn.pause)
  { session := after.1
    next := after.2.1
    events := r.events ++ told
    copies :=
      match after.2.2 with
      | .ok () => taken told after.1.root (dropped told r.copies)
      | .error _ => dropped told r.copies }

/-- Whether the next rebuild succeeds. -/
def Succeeds (r : Reader) (turn : Turn) : Prop :=
  (r.session.update turn.cells (r.next + turn.pause)).2.2 = .ok ()

/-- Readers that have followed a session from its fresh root on. -/
inductive Follows (context : Context) : Reader → Prop
  | start (policy : RetryPolicy) (language : String) (path : Url) (extension : String)
      (number : Nat) : Follows context (start context policy language path extension number)
  | follow {r : Reader} (turn : Turn) : Follows context r → Follows context (r.follow turn)

/-- What a reader has heard fits the tree, path by path. -/
structure Informed (r : Reader) : Prop where
  rests : Rests r.session.context r.next r.session.root
  root : lifeOf r.session.root.idPath r.events = []
  standing : ∀ p, ∃ s, (∀ v, Told p v s r.session.root) ∧ r.copies p = s.copy ∧
    (p ≠ r.session.root.idPath → Lives (lifeOf p r.events) s)

theorem Informed.later {r : Reader} (h : r.Informed) (pause : Nat) :
    Rests r.session.context (r.next + pause) r.session.root :=
  { h.rests with reach := h.rests.reach.wait (Nat.le_add_right _ _) }

theorem Informed.follow {r : Reader} (hplain : r.session.context.PlainNames) (h : r.Informed)
    (turn : Turn) : (r.follow turn).Informed := by
  obtain ⟨hrests, hreports, hok, herror⟩ := (h.later turn.pause).report_update hplain turn.cells
  refine ⟨?_, ?_, ?_⟩
  · show Rests (r.session.update turn.cells (r.next + turn.pause)).1.context _ _
    rw [context_update]
    exact hrests
  · show lifeOf (r.session.update turn.cells (r.next + turn.pause)).1.root.idPath (r.events ++ _) = []
    rw [lifeOf_append, hreports.idPath_eq, h.root, lifeOf_eq_nil hreports.root, List.append_nil]
  · intro p
    obtain ⟨s, hs, hcopy, hlives⟩ := h.standing p
    obtain ⟨s', v, hheard, hs', hchanged⟩ := hreports.heard p s hs
    refine ⟨s', hs', ?_, ?_⟩
    · have hdropped : (¬ ∃ e ∈ r.session.told turn.cells (r.next + turn.pause),
          e.kind = .changed ∧ e.idPath = p) →
          dropped (r.session.told turn.cells (r.next + turn.pause)) r.copies p = s'.copy := by
        intro hcalm
        exact (copy_hearAll hheard (fun e he hk hp => hcalm ⟨e, he, hk, hp⟩) hcopy).symm
      rw [Reader.follow]
      cases hres : (r.session.update turn.cells (r.next + turn.pause)).2.2 with
      | error cause =>
        refine hdropped ?_
        rintro ⟨e, he, hkind, _⟩
        exact herror (by rw [hres]; simp) e he hkind
      | ok u =>
        obtain ⟨hquiet, hnoted⟩ := hok hres
        simp only [taken]
        split
        next hevent =>
          -- the document that has changed is the only one at its path
          obtain ⟨e, he, hkind, hp⟩ := hevent
          obtain ⟨x, hx, hpath, _⟩ := hchanged e he hkind hp
          have hsteady := steady_of_reachable hplain.siblingsApart hrests.reach
          rw [(hs' v).eq_known hsteady hquiet (owns_of_mem_walk hx) hpath, hnoted x hx, ← hpath,
            find?_walk hplain hsteady hx]
          rfl
        next hcalm => exact hdropped hcalm
    · intro hne
      show Lives (lifeOf p (r.events ++ _)) s'
      rw [lifeOf_append]
      refine Lives.hearAll (hlives fun heq => hne ?_) hheard
      exact heq.trans hreports.idPath_eq.symm

end Reader

section

variable {context : Context} {next : Nat} {d c x : Document} {p : String} {v : Text} {s : Standing}

end

section

open Reader

variable {context : Context} {r : Reader}

end

end Polyglot
