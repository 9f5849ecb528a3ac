import EditorServices.Proofs.Session.Correlation
import EditorServices.Proofs.Session.RequestIds
import EditorServices.Proofs.Session.WireOrder

/-!
# `Proofs.Session.RequestTable` — the table lists the calls that wait for their replies

An entry of the table can be removed by three parties, the response that it waits for, the end of the
session and the end of its own call, in any order around writes that fail and callers that give up. None of
them can leave an entry behind or remove one of another call, because at any time the table lists exactly the
waits without a reply (`Consistent`), and the wait of a call is not over before the call is. What is left is to
follow one call: it goes on under its id from its registration, and once it does not any more, the id is
`Retired` for good.

## Contents
- **Calls.** `Requests`, a call that goes on; `Requests.after`.
- **The table.** `mem_pendingIds`, `TableKept`.
- **The headline.** `request_table`, for every history, and for what one writer makes of it.
-/

namespace EditorServices.Session

/-! ## Calls -/

/-- A task has sent a request under an id, or is about to, and goes on with it. -/
def Requests (s : Session) (t id : Nat) : Prop :=
  ∃ purpose written reply, s.progressOf t = some (.requesting purpose id written reply)

variable {s : Session} {u : Turn} {t id : Nat}

theorem requests_iff : Requests s t id ↔ ∃ w, s.waitOf t = some w ∧ w.id = id := by
  constructor
  · rintro ⟨purpose, written, reply, hp⟩
    exact ⟨_, waitOf_of_progressOf hp, rfl⟩
  · rintro ⟨w, hw, rfl⟩
    exact ⟨_, _, _, progressOf_of_waitOf hw⟩

/-- Who waits after a turn has waited before under the same id, or its request is the next one. -/
theorem waitOf_before {w : Wait} (h : (s.step u).session.waitOf t = some w) :
    (∃ x, s.waitOf t = some x ∧ x.id = w.id) ∨ w.id = s.lastRequest + 1 := by
  cases dealing_step s u with
  | still _ _ waits _ => exact .inl ⟨w, waits t ▸ h, rfl⟩
  | registered v _ _ _ _ _ waits _ =>
    rw [waits t] at h
    split at h
    · cases h
      exact .inr rfl
    · exact .inl ⟨w, h, rfl⟩
  | resolved m _ v _ _ _ _ _ waits =>
    rw [waits t] at h
    split at h
    · next htv =>
      obtain ⟨x, hx, rfl⟩ := Option.map_eq_some_iff.mp h
      exact .inl ⟨x, htv ▸ hx, (x.id_answered _).symm⟩
    · exact .inl ⟨w, h, rfl⟩
  | left v x _ _ _ waits _ =>
    rw [waits t] at h
    split at h
    · cases h
    · exact .inl ⟨w, h, rfl⟩
  | written v x wait _ _ _ waits _ =>
    rw [waits t] at h
    split at h
    · next htv =>
      cases h
      exact .inl ⟨x, htv ▸ wait, rfl⟩
    · exact .inl ⟨w, h, rfl⟩
  | failed reason _ _ _ waits _ =>
    rw [waits t] at h
    split at h
    · obtain ⟨x, hx, rfl⟩ := Option.map_eq_some_iff.mp h
      exact .inl ⟨x, hx, (x.id_answered _).symm⟩
    · exact .inl ⟨w, h, rfl⟩

/-- **A call goes on under its id, or nobody ever waits under it again.** -/
theorem Requests.step (hcons : Consistent s) (h : Requests s t id) (u : Turn) :
    Requests (s.step u).session t id ∨ Retired (s.step u).session id := by
  obtain ⟨w, hw, rfl⟩ := requests_iff.mp h
  have hbound := hcons.bounded t w hw
  by_cases hgoes : Requests (s.step u).session t w.id
  · exact .inl hgoes
  refine .inr ⟨Nat.le_trans hbound (lastRequest_le_step s u), fun v x hx hid => ?_⟩
  rcases waitOf_before hx with ⟨y, hy, hyid⟩ | hnew
  · -- only this call waited under the id
    obtain rfl := hcons.single v t y w hy hw (hyid.trans hid)
    exact hgoes (requests_iff.mpr ⟨x, hx, hid⟩)
  · omega

theorem Requests.after (hcons : Consistent s) (h : Requests s t id) (g : List Turn) :
    Requests (s.after g) t id ∨ Retired (s.after g) id := by
  induction g generalizing s with
  | nil => exact .inl h
  | cons u g ih =>
    rcases h.step hcons u with hgoes | hretired
    · exact ih (hcons.step u) hgoes
    · exact .inr (hretired.after g)

/-- A request that is registered is handed over in the same turn, and its call goes on then. -/
theorem Registers.asks (h : Registers s u t id) : requestIds (s.step u).effects = [.int id] := by
  obtain ⟨hid, hlast⟩ := h.eq_last
  rcases quiet_or_asks_step s u with hquiet | hasks
  · have := hquiet.last
    omega
  · rw [hasks.ids, hid]

theorem Registers.requests (hcons : Consistent s) (h : Registers s u t id) : Requests (s.step u).session t id := by
  obtain ⟨w, hw, hid, -⟩ := (hcons.step u).waiting h.1
  exact requests_iff.mpr ⟨w, hw, hid⟩

/-! ## The table -/

theorem mem_pendingIds : id ∈ s.pendingIds ↔ ∃ t, (id, t) ∈ s.pending := by
  unfold pendingIds
  rw [List.mem_mergeSort, List.mem_map]
  exact ⟨fun ⟨p, hp, hid⟩ => ⟨p.2, hid ▸ hp⟩, fun ⟨t, ht⟩ => ⟨(id, t), ht, rfl⟩⟩

/-- The numbers from 1 on, as ids. -/
def firstIds (n : Nat) : List Json := (List.range' 1 n).map fun k => .int (k : Nat)

/-- What holds of requests and of their table after a history. -/
structure TableKept (p : Profile) (h : List Turn) : Prop where
  /-- Requests are handed over under the ids 1, 2, 3 and so on. -/
  handed : requestIds ((new p).run h).effects = firstIds ((new p).after h).lastRequest
  /-- An id in the table was put there by a turn that handed over its request, and the call that it belongs to
  has gone on since. -/
  registered : ∀ id ∈ ((new p).after h).pendingIds, ∃ t a u b, h = a ++ u :: b ∧
    Registers ((new p).after a) u t id ∧ requestIds (((new p).after a).step u).effects = [.int id] ∧
    ∀ c d, b = c ++ d → Requests ((new p).after (a ++ u :: c)) t id
  /-- A call without a reply has its id in the table. -/
  unanswered : ∀ t purpose id written,
    ((new p).after h).progressOf t = some (.requesting purpose id written none) →
    id ∈ ((new p).after h).pendingIds
  /-- While no call goes on the table is empty. -/
  idle : (∀ t id, ¬ Requests ((new p).after h) t id) → ((new p).after h).pendingIds = []

theorem requestIds_run_new (p : Profile) (h : List Turn) :
    requestIds ((new p).run h).effects = firstIds ((new p).after h).lastRequest := by
  obtain ⟨n, hlast, hids⟩ := requestIds_run (new p) h
  rw [hlast, hids]
  show _ = firstIds (0 + n)
  rw [Nat.zero_add]
  rfl

/-- The call of an entry has gone on since the entry was made. -/
theorem requests_since {p : Profile} {a b : List Turn} (hreg : Registers ((new p).after a) u t id)
    (hmem : id ∈ ((new p).after (a ++ u :: b)).pendingIds) {c d : List Turn} (hb : b = c ++ d) :
    Requests ((new p).after (a ++ u :: c)) t id := by
  have hcons := consistent_after p a
  rw [after_append, after_cons]
  rcases (hreg.requests hcons).after (hcons.step u) c with hgoes | hretired
  · exact hgoes
  · -- the id would be in nobody's use at the end
    obtain ⟨v, hv⟩ := mem_pendingIds.mp hmem
    obtain ⟨w, hw, hid, -⟩ := (consistent_after p (a ++ u :: b)).waiting hv
    rw [hb, after_append, after_cons, after_append] at hw
    exact absurd hid ((hretired.after d).2 v w hw)

theorem tableKept (p : Profile) (h : List Turn) : TableKept p h := by
  have hcons := consistent_after p h
  refine ⟨requestIds_run_new p h, fun id hmem => ?_, fun t purpose id written hp => ?_, fun hnone => ?_⟩
  · obtain ⟨t, ht⟩ := mem_pendingIds.mp hmem
    obtain ⟨w, hw, rfl, -⟩ := hcons.waiting ht
    obtain ⟨a, u, b, rfl, hreg, -⟩ := (traced p h t w hw).registered
    exact ⟨t, a, u, b, rfl, hreg, hreg.asks, fun c d hb => requests_since hreg hmem hb⟩
  · exact mem_pendingIds.mpr ⟨t, hcons.mem_pending (waitOf_of_progressOf hp) rfl⟩
  · refine List.eq_nil_iff_forall_not_mem.mpr fun id hmem => ?_
    obtain ⟨t, ht⟩ := mem_pendingIds.mp hmem
    obtain ⟨w, hw, hid, -⟩ := hcons.waiting ht
    exact hnone t id (requests_iff.mpr ⟨w, hw, hid⟩)

/-! ## The headline -/

/-- **The ids of requests and the table of those without a reply.** After every history of calls, messages of
the server, results of operations, callers that give up, ends of the stream and disposals,

* the requests were handed over under the ids 1, 2, 3 and so on, none of them twice;
* an id is in the table only from the turn that handed over its request on, while the call goes on, and it is
  there while the call has no reply; without such calls the table is empty.

And if one writer writes what is handed over, the ids that it has written, followed by those that still wait,
are these numbers in their order. -/
theorem request_table (p : Profile) :
    (∀ h, TableKept p h) ∧
    ∀ peer surroundings xs, Loop.WritesInOrder (.new p peer surroundings) xs →
      requestIdsIn ((Loop.new p peer surroundings).written xs) ++
          requestIdsIn ((Loop.new p peer surroundings).run xs).waiting =
        firstIds ((Loop.new p peer surroundings).run xs).session.lastRequest := by
  refine ⟨tableKept p, fun peer surroundings xs order => ?_⟩
  -- the turns of a loop are a history, and one writer writes what it hands over in this order
  obtain ⟨hs, -, hsession, heffects, -⟩ := Loop.exists_turns (.new p peer surroundings) xs
  obtain ⟨es, hes, hlaw⟩ := Loop.waiting_append_run order
  obtain rfl : es = ((new p).run hs).effects := List.append_cancel_left (hes.symm.trans heffects)
  have hids := congrArg requestIdsIn hlaw
  simp only [requestIdsIn, List.filterMap_append] at hids
  rw [hsession]
  exact hids.symm.trans (requestIds_run_new p hs)

/-- After a handshake two questions are asked at a time. Their requests are handed over and written under the
next ids, and both wait for their replies. -/
theorem two_questions_numbered :
    let p : Profile := ⟨"/a.txt", .str "text", "/", .int 0, false, false, 1⟩
    let surroundings : Channel.Surroundings := ⟨⟨"linux", none⟩, [], none, none, false, false, false, 0⟩
    let now (place : Nat) : Occurrence := .serve place (.ok "")
    let hover := .call (.ask .hover (.int 0) (.int 0))
    let xs := [.call .handshake, now 0, now 0, now 0, now 0, now 0, now 0, .arrive (.obj [("id", .int 1)]),
      now 0, now 1, now 1, now 1, hover, hover, now 1, now 1, now 1]
    (Loop.new p .streams surroundings).WritesInOrder xs ∧
      requestIdsIn ((Loop.new p .streams surroundings).written xs) ++
        requestIdsIn ((Loop.new p .streams surroundings).run xs).waiting = [.int 1, .int 2, .int 3] ∧
      ((Loop.new p .streams surroundings).run xs).session.pending.map Prod.fst = [2, 3] := by
  intro p surroundings now hover xs
  have order : (Loop.new p .streams surroundings).WritesInOrder xs := by decide +kernel
  have hids := (request_table p).2 .streams surroundings xs order
  have hlast : ((Loop.new p .streams surroundings).run xs).session.lastRequest = 3 := by decide +kernel
  exact ⟨order, hids.trans (congrArg firstIds hlast), by decide +kernel⟩

end EditorServices.Session
