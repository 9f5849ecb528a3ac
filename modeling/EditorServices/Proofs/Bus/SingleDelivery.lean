import EditorServices.Proofs.Bus.Tickets

/-!
# `Proofs.Bus.SingleDelivery` — how often a subscription for a single delivery is told

A wrapper for a single delivery ends its subscription when it is called, so that no publication which begins
later calls it. But who is called for a publication is settled when it begins. Publications that began before
the first call, and have not reached the wrapper yet, call it as well. Such publications overlap: one waits
inside the other, or a callback of one suspends while the other goes on.

Behind this is the account of all publications in any interleaving: who was called for one, and who is still to
be called, are together those who were subscribed when it began.

## Contents
- **The account of publications.** `Served` and `Accounted`; `Reaches.accounted`.
- **One wrapper.** Its subscription stands at most once, and never after it was called.
- **The headline.** `told_by_those_begun_before`.
-/

namespace EditorServices.Bus

/-! ## The account of publications -/

namespace Floor

open History

variable {σ : Type} {f f' : Floor σ} {frames frames' others : List (Frame σ)} {number : Nat}
  {due : List Callee} {after : History}

/-- A publication that began before a piece of history is still under way, with those left who were not called
yet, or it was delivered after all were called. -/
def Served (frames : List (Frame σ)) (number : Nat) (due : List Callee) (after : History) : Prop :=
  (∃ frame ∈ frames, frame.number = number ∧ .delivered number ∉ after ∧
    calls after number ++ frame.rest.map (·.callee) = due) ∨
  ((∀ frame ∈ frames, frame.number ≠ number) ∧ ∃ during later, after = during ++ .delivered number :: later ∧
    .delivered number ∉ during ∧ calls during number = due ∧ calls later number = [])

/-- Every publication is accounted for. -/
structure Accounted (f : Floor σ) (frames : List (Frame σ)) : Prop where
  distinct : (frames.map (·.number)).Nodup
  known : ∀ frame ∈ frames, frame.number < f.payloads.length
  late : ∀ (before : History) number callee p after, f.history = before ++ .called number callee p :: after →
    number < before.payloads.length
  served : ∀ (before : History) kind properties number p after,
    f.history = before ++ .publishing kind properties (.begun number p) :: after →
      number = before.payloads.length ∧ Served frames number (before.due kind.type) after

/-- Nothing of this concerns the account. -/
def Silent : Event → Prop
  | .publishing _ _ (.begun _ _) | .called .. | .delivered _ => False
  | _ => True

theorem calls_silent {m : History} (hm : ∀ e ∈ m, Silent e) (number : Nat) : calls m number = [] := by
  refine List.filterMap_eq_nil_iff.mpr fun e he => ?_
  cases e with
  | called => exact (hm _ he).elim
  | subscribed | unsubscribed | closed | amended | publishing | delivered => rfl

/-- What neither calls for a publication nor delivers it, nor touches its frame, keeps how it is served. -/
theorem Served.keep {m : History} (h : Served frames number due after)
    (hframes : ∀ frame : Frame σ, frame.number = number → (frame ∈ frames ↔ frame ∈ frames'))
    (hcalls : calls m number = []) (hunder : .delivered number ∉ m) :
    Served frames' number due (after ++ m) := by
  rcases h with ⟨frame, hframe, hnumber, hnot, hdue⟩ | ⟨hnone, during, later, rfl, hfirst, hduring, hlater⟩
  · refine .inl ⟨frame, (hframes frame hnumber).mp hframe, hnumber, fun hmem => ?_, ?_⟩
    · rcases List.mem_append.mp hmem with hmem | hmem
      · exact hnot hmem
      · exact hunder hmem
    · rw [calls_append, hcalls, List.append_nil, hdue]
  · refine .inr ⟨fun frame hframe hnumber => ?_, during, later ++ m, by simp, hfirst, hduring, ?_⟩
    · exact hnone frame ((hframes frame hnumber).mpr hframe) hnumber
    · rw [calls_append, hlater, hcalls, List.append_nil]

namespace Accounted

theorem perm (hf : f.Accounted frames) (h : frames.Perm frames') : f.Accounted frames' := by
  refine ⟨(h.map _).nodup_iff.mp hf.distinct, fun frame hframe => hf.known frame (h.mem_iff.mpr hframe), hf.late, ?_⟩
  intro before kind properties number p after heq
  obtain ⟨hnumber, hserved⟩ := hf.served before kind properties number p after heq
  refine ⟨hnumber, ?_⟩
  unfold Served at hserved ⊢
  simpa only [h.mem_iff] using hserved

/-- What happens besides publications changes nothing in their account. -/
theorem more {m : History} (hf : f.Accounted frames) (hhistory : f'.history = f.history ++ m)
    (hpayloads : f'.payloads.length = f.payloads.length) (hm : ∀ e ∈ m, Silent e) : f'.Accounted frames := by
  refine ⟨hf.distinct, fun frame hframe => hpayloads ▸ hf.known frame hframe, ?_, ?_⟩
  · intro before number callee p after heq
    rcases split_append (hhistory.symm.trans heq) with ⟨after', hold, -⟩ | ⟨before', -, hnew⟩
    · exact hf.late before number callee p after' hold
    · exact (hm (.called number callee p) (by simp [hnew])).elim
  · intro before kind properties number p after heq
    rcases split_append (hhistory.symm.trans heq) with ⟨after', hold, rfl⟩ | ⟨before', -, hnew⟩
    · obtain ⟨hnumber, hserved⟩ := hf.served before kind properties number p after' hold
      refine ⟨hnumber, hserved.keep (fun _ _ => .rfl) (calls_silent hm number) fun hmem => ?_⟩
      exact (hm _ hmem).elim
    · exact (hm (.publishing kind properties (.begun number p)) (by simp [hnew])).elim

/-- The frames of other publications. -/
theorem number_ne {frame : Frame σ} (hf : f.Accounted (frame :: frames)) :
    ∀ other ∈ frames, other.number ≠ frame.number := by
  intro other hother heq
  exact (List.nodup_cons.mp hf.distinct).1 (List.mem_map.mpr ⟨other, hother, heq⟩)

/-- An event that is added to a history stands in it at its end, or it is the history's. -/
theorem concat_cases {h before after : History} {e e' : Event} (heq : h ++ [e'] = before ++ e :: after) :
    (∃ after', h = before ++ e :: after' ∧ after = after' ++ [e']) ∨ before = h ∧ e = e' ∧ after = [] := by
  rcases split_append heq with h | ⟨before', rfl, hlast⟩
  · exact .inl h
  · rcases List.append_eq_singleton_iff.mp hlast.symm with ⟨rfl, hlast⟩ | ⟨-, hlast⟩
    · obtain ⟨rfl, rfl⟩ := List.cons.inj hlast
      exact .inr ⟨by simp, rfl, rfl⟩
    · cases hlast

/-- A publication begins. -/
theorem begin {level : Nat} (hf : f.Accounted frames) (hkept : f.Kept level) (kind : EventKind)
    (properties : Properties) (p : Payload) (next : Except Failure Unit → Program σ) :
    ({ f with payloads := f.payloads ++ [p] }.happened
        [.publishing kind properties (.begun f.payloads.length p)]).Accounted
      (⟨f.payloads.length, kind.type, f.bus.recipients kind.type, next⟩ :: frames) := by
  have hlength : f.payloads.length = f.history.payloads.length := by rw [hkept.payloads]
  refine ⟨?_, ?_, ?_, ?_⟩
  · refine List.nodup_cons.mpr ⟨fun hmem => ?_, hf.distinct⟩
    obtain ⟨frame, hframe, hnumber⟩ := List.mem_map.mp hmem
    exact absurd hnumber (Nat.ne_of_lt (hf.known frame hframe))
  · intro frame hframe
    show frame.number < (f.payloads ++ [p]).length
    rw [List.length_append, List.length_singleton]
    rcases List.mem_cons.mp hframe with rfl | hframe
    · exact Nat.lt_succ_self _
    · exact Nat.lt_succ_of_lt (hf.known frame hframe)
  · intro before number callee q after heq
    rcases concat_cases heq with ⟨after', hold, -⟩ | ⟨-, hnew, -⟩
    · exact hf.late before number callee q after' hold
    · cases hnew
  · intro before kind' properties' number q after heq
    rcases concat_cases heq with ⟨after', hold, rfl⟩ | ⟨rfl, hnew, rfl⟩
    · obtain ⟨hnumber, hserved⟩ := hf.served before kind' properties' number q after' hold
      have hne : f.payloads.length ≠ number := by
        have hle := length_payloads_le (before ++ [.publishing kind' properties' (.begun number q)]) after'
        rw [payloads_concat, List.append_assoc, List.singleton_append, ← hold, ← hlength] at hle
        simp only [restated, List.length_append, List.length_singleton] at hle
        omega
      refine ⟨hnumber, hserved.keep (fun frame hnum => ?_) rfl (by simp)⟩
      rw [List.mem_cons, or_iff_right]
      rintro rfl
      exact hne hnum
    · cases hnew
      refine ⟨hlength, .inl ⟨_, List.mem_cons_self, rfl, List.not_mem_nil, ?_⟩⟩
      exact hkept.map_recipients kind.type

/-- A publication calls its next recipient. -/
theorem call {type : String} {s : Subscription} {rest : List Subscription}
    {next : Except Failure Unit → Program σ} {p : Payload} {level : Nat}
    (hf : f.Accounted (⟨number, type, s :: rest, next⟩ :: frames)) (hkept : f.Kept level) :
    (f.happened [.called number s.callee p]).Accounted (⟨number, type, rest, next⟩ :: frames) := by
  refine ⟨hf.distinct, ?_, ?_, ?_⟩
  · intro frame hframe
    rcases List.mem_cons.mp hframe with rfl | hframe
    · exact hf.known ⟨number, type, s :: rest, next⟩ List.mem_cons_self
    · exact hf.known frame (List.mem_cons_of_mem _ hframe)
  · intro before n callee q after heq
    rcases concat_cases heq with ⟨after', hold, -⟩ | ⟨rfl, hnew, -⟩
    · exact hf.late before n callee q after' hold
    · cases hnew
      rw [← hkept.payloads]
      exact hf.known _ List.mem_cons_self
  · intro before kind properties n q after heq
    rcases concat_cases heq with ⟨after', hold, rfl⟩ | ⟨-, hnew, -⟩
    · obtain ⟨hnumber, hserved⟩ := hf.served before kind properties n q after' hold
      refine ⟨hnumber, ?_⟩
      by_cases hn : number = n
      · subst hn
        rcases hserved with ⟨frame, hframe, hnum, hunder, hcalls⟩ | ⟨hnone, -⟩
        · obtain rfl : frame = ⟨number, type, s :: rest, next⟩ := by
            rcases List.mem_cons.mp hframe with h | h
            · exact h
            · exact absurd hnum (hf.number_ne frame h)
          refine .inl ⟨_, List.mem_cons_self, rfl, by simpa using hunder, ?_⟩
          rw [calls_append, ← hcalls]
          simp [calls]
        · exact absurd rfl (hnone _ List.mem_cons_self)
      · refine hserved.keep (fun frame hnum => ?_) (by simp [calls, hn]) (by simp)
        have hother (rest : List Subscription) : frame ≠ ⟨number, type, rest, next⟩ := by
          rintro rfl
          exact hn hnum
        rw [List.mem_cons, List.mem_cons, or_iff_right (hother _), or_iff_right (hother _)]
    · cases hnew

/-- A publication without anybody left is delivered. -/
theorem deliver {type : String} {next : Except Failure Unit → Program σ}
    (hf : f.Accounted (⟨number, type, [], next⟩ :: frames)) :
    (f.happened [.delivered number]).Accounted frames := by
  refine ⟨(List.nodup_cons.mp hf.distinct).2, fun frame hframe => hf.known frame (List.mem_cons_of_mem _ hframe), ?_, ?_⟩
  · intro before n callee q after heq
    rcases concat_cases heq with ⟨after', hold, -⟩ | ⟨-, hnew, -⟩
    · exact hf.late before n callee q after' hold
    · cases hnew
  · intro before kind properties n q after heq
    rcases concat_cases heq with ⟨after', hold, rfl⟩ | ⟨-, hnew, -⟩
    · obtain ⟨hnumber, hserved⟩ := hf.served before kind properties n q after' hold
      refine ⟨hnumber, ?_⟩
      by_cases hn : number = n
      · subst hn
        rcases hserved with ⟨frame, hframe, hnum, hunder, hcalls⟩ | ⟨hnone, -⟩
        · rcases List.mem_cons.mp hframe with rfl | hframe
          · exact .inr ⟨hf.number_ne, after', [], rfl, hunder, by simpa using hcalls, rfl⟩
          · exact absurd hnum (hf.number_ne frame hframe)
        · exact absurd rfl (hnone _ List.mem_cons_self)
      · refine hserved.keep (fun frame hnum => ?_) rfl (by simpa using Ne.symm hn)
        rw [List.mem_cons, or_iff_right]
        rintro rfl
        exact hn hnum
    · cases hnew

/-- What a step of a task does keeps the account. -/
theorem act {level : Nat} (hf : f.Accounted (frames ++ others)) (hkept : f.Kept level)
    (h : Act f f' frames frames') : f'.Accounted (frames' ++ others) := by
  cases h with
  | idle => exact hf
  | subscribe mode type listener =>
    refine hf.more rfl rfl fun e he => ?_
    obtain ⟨t, -, rfl⟩ := Option.map_eq_some_iff.mp (Option.mem_toList.mp he)
    trivial
  | unsubscribe t | close =>
    refine hf.more rfl rfl fun e he => ?_
    cases List.mem_singleton.mp he
    trivial
  | amend n p =>
    refine hf.more rfl List.length_set fun e he => ?_
    cases List.mem_singleton.mp he
    trivial
  | @spare kind properties start _ idle =>
    refine hf.more rfl rfl fun e he => ?_
    cases List.mem_singleton.mp he
    cases start with
    | begun n p => exact absurd rfl (idle n p)
    | tooDeep | dropped | refused e => trivial
  | begin kind properties ms next => exact hf.begin hkept kind properties ⟨kind.type, ms⟩ next
  | skip type s rest next unknown =>
    have := hf.known _ List.mem_cons_self
    exact absurd (List.getElem?_eq_none_iff.mp unknown) (Nat.not_le.mpr this)
  | @call n type s rest next _ p payload =>
    have hcalled := hf.call (p := p) hkept
    unfold release
    split
    · refine hcalled.more (m := [.unsubscribed s]) rfl rfl fun e he => ?_
      cases List.mem_singleton.mp he
      trivial
    · exact hcalled
  | deliver n type next => exact hf.deliver

end Accounted

variable {behave : Behaviour σ} {depth : Nat} {shared : σ}

/-- **Every publication is accounted for**, whatever tasks do in whatever order. -/
theorem Reaches.accounted {tasks : List (Task σ)} (reached : Reaches behave depth shared f tasks) :
    f.Accounted (framesOf tasks) := by
  refine reached.preserves ?_ (fun _ _ _ h hf => hf.perm h) ?_ fun _ _ _ _ _ _ hkept hact hf => hf.act hkept hact
  · have hnothing {before : History} {e : Event} {after : History} (heq : [] = before ++ e :: after) : False := by
      simp at heq
    exact ⟨.nil, nofun, fun _ _ _ _ _ heq => (hnothing heq).elim, fun _ _ _ _ _ _ heq => (hnothing heq).elim⟩
  · intro f f' frames halike hf
    exact hf.more (m := []) (by simp [halike.history]) (by rw [halike.payloads]) nofun

/-! ## One wrapper -/

/-- A wrapper is released as soon as it is called, and whoever is still to be called was subscribed. -/
structure Freed (f : Floor σ) (frames : List (Frame σ)) : Prop where
  subscribed : ∀ frame ∈ frames, ∀ s ∈ frame.rest, s ∈ made f.history
  released : ∀ before number n id p after, f.history = before ++ .called number (.once n id) p :: after →
    ∃ s later, s ∈ made f.history ∧ s.callee = .once n id ∧ after = .unsubscribed s :: later

namespace Freed

/-- A piece of history in which wrappers are released as soon as they are called. -/
theorem more {m : History} (hf : f.Freed frames) (hhistory : f'.history = f.history ++ m)
    (hm : ∀ before number n id p after, m = before ++ .called number (.once n id) p :: after →
      ∃ s later, s ∈ made f.history ∧ s.callee = .once n id ∧ after = .unsubscribed s :: later)
    (hframes : ∀ frame ∈ frames', ∀ s ∈ frame.rest, s ∈ made f.history) : f'.Freed frames' := by
  have hmade (s : Subscription) (hs : s ∈ made f.history) : s ∈ made f'.history := by
    rw [hhistory, made_append]
    exact List.mem_append_left _ hs
  refine ⟨fun frame hframe s hs => hmade s (hframes frame hframe s hs), ?_⟩
  intro before number n id p after heq
  rcases split_append (hhistory.symm.trans heq) with ⟨after', hold, rfl⟩ | ⟨before', -, hnew⟩
  · obtain ⟨s, later, hs, hcallee, rfl⟩ := hf.released before number n id p after' hold
    exact ⟨s, later ++ m, hmade s hs, hcallee, rfl⟩
  · obtain ⟨s, later, hs, hcallee, rfl⟩ := hm before' number n id p after hnew
    exact ⟨s, later, hmade s hs, hcallee, rfl⟩

/-- Something happens that is no call. -/
theorem one {e : Event} (hf : f.Freed frames) (hhistory : f'.history = f.history ++ [e])
    (he : ∀ number callee p, e ≠ .called number callee p)
    (hframes : ∀ frame ∈ frames', ∀ s ∈ frame.rest, s ∈ made f.history) : f'.Freed frames' := by
  refine hf.more hhistory (fun before number n id p after heq => ?_) hframes
  rcases List.append_eq_singleton_iff.mp heq.symm with ⟨-, heq⟩ | ⟨-, heq⟩
  · exact absurd (List.cons.inj heq).1.symm (he number _ p)
  · cases heq

theorem call {type : String} {s : Subscription} {rest : List Subscription}
    {next : Except Failure Unit → Program σ} (p : Payload)
    (hf : f.Freed (⟨number, type, s :: rest, next⟩ :: frames)) :
    ((f.happened [.called number s.callee p]).release s).Freed (⟨number, type, rest, next⟩ :: frames) := by
  have hs : s ∈ made f.history := hf.subscribed _ List.mem_cons_self s List.mem_cons_self
  have hframes : ∀ frame ∈ ⟨number, type, rest, next⟩ :: frames, ∀ s ∈ frame.rest, s ∈ made f.history := by
    intro frame hframe s' hs'
    rcases List.mem_cons.mp hframe with rfl | hframe
    · exact hf.subscribed _ List.mem_cons_self s' (List.mem_cons_of_mem _ hs')
    · exact hf.subscribed frame (List.mem_cons_of_mem _ hframe) s' hs'
  obtain ⟨key, callee⟩ := s
  cases callee with
  | listener id =>
    refine hf.more (m := [.called number (.listener id) p]) rfl (fun before m n id' q after heq => ?_) hframes
    rcases List.append_eq_singleton_iff.mp heq.symm with ⟨-, heq⟩ | ⟨-, heq⟩ <;> cases heq
  | once n id =>
    let s : Subscription := ⟨key, .once n id⟩
    have hhistory : ((f.happened [.called number s.callee p]).release s).history =
        f.history ++ [.called number s.callee p, .unsubscribed s] := List.append_assoc ..
    refine hf.more hhistory (fun before m n' id' q after heq => ?_) hframes
    cases before with
    | nil =>
      cases heq
      exact ⟨s, [], hs, rfl, rfl⟩
    | cons e before =>
      rcases List.append_eq_singleton_iff.mp (List.cons.inj heq).2.symm with ⟨-, heq⟩ | ⟨-, heq⟩ <;> cases heq

/-- What a step of a task does keeps this. -/
theorem act {level : Nat} (hf : f.Freed (frames ++ others)) (hkept : f.Kept level)
    (h : Act f f' frames frames') : f'.Freed (frames' ++ others) := by
  cases h with
  | idle => exact hf
  | subscribe mode type listener =>
    refine hf.more rfl (fun before number n id p after heq => ?_) hf.subscribed
    have hmem : Event.called number (.once n id) p ∈ before ++ .called number (.once n id) p :: after := by simp
    rw [← heq, Option.mem_toList] at hmem
    obtain ⟨t, -, ht⟩ := Option.map_eq_some_iff.mp hmem
    cases ht
  | unsubscribe t | close | amend n p | spare =>
    exact hf.one rfl (fun _ _ _ => nofun) hf.subscribed
  | begin kind properties ms next =>
    refine hf.one rfl (fun _ _ _ => nofun) fun frame hframe s hs => ?_
    rcases List.mem_cons.mp hframe with rfl | hframe
    · have hstanding : s ∈ f.bus.subscriptions := by
        rcases List.mem_append.mp hs with hs | hs <;> exact (List.mem_filter.mp hs).1
      exact (subscriptions_sublist_made f.history).subset (hkept.subscriptions ▸ hstanding)
    · exact hf.subscribed frame hframe s hs
  | skip type s rest next unknown =>
    refine ⟨fun frame hframe s' hs' => ?_, hf.released⟩
    rcases List.mem_cons.mp hframe with rfl | hframe
    · exact hf.subscribed _ List.mem_cons_self s' (List.mem_cons_of_mem _ hs')
    · exact hf.subscribed frame (List.mem_cons_of_mem _ hframe) s' hs'
  | @call n type s rest next _ p payload => exact hf.call p
  | deliver n type next =>
    exact hf.one rfl (fun _ _ _ => nofun) fun frame hframe => hf.subscribed frame (List.mem_cons_of_mem _ hframe)

end Freed

theorem Reaches.freed {tasks : List (Task σ)} (reached : Reaches behave depth shared f tasks) :
    f.Freed (framesOf tasks) := by
  refine reached.preserves ?_ ?_ ?_ fun _ _ _ _ _ _ hkept hact hf => hf.act hkept hact
  · refine ⟨nofun, fun before number n id p after heq => ?_⟩
    have hnil : [] = before ++ Event.called number (.once n id) p :: after := heq
    simp at hnil
  · intro f frames frames' h hf
    exact ⟨fun frame hframe => hf.subscribed frame (h.mem_iff.mpr hframe), hf.released⟩
  · intro f f' frames halike hf
    refine ⟨fun frame hframe => ?_, ?_⟩ <;> rw [halike.history]
    · exact hf.subscribed frame hframe
    · exact hf.released

/-! ### Calls of a publication -/

/-- **What a publication has called.** These are the first of those who were subscribed when it began, and all
of them when it was delivered. -/
theorem Reaches.calls_begun {tasks : List (Task σ)} (reached : Reaches behave depth shared f tasks)
    {before : History} {kind : EventKind} {properties : Properties} {p : Payload}
    (heq : f.history = before ++ .publishing kind properties (.begun number p) :: after) :
    calls f.history number <+: before.due kind.type ∧
      (.delivered number ∈ after → calls f.history number = before.due kind.type) := by
  have hf := reached.accounted
  obtain ⟨hnumber, hserved⟩ := hf.served before kind properties number p after heq
  have hcalls : calls f.history number = calls after number := by
    -- a call before would have been for a publication with a smaller number
    have hbefore : calls before number = [] := by
      refine List.filterMap_eq_nil_iff.mpr fun e he => ?_
      obtain ⟨b, a, rfl⟩ := List.append_of_mem he
      cases e with
      | called n callee q =>
        have hlate := hf.late b n callee q (a ++ .publishing kind properties (.begun number p) :: after)
          (by rw [heq, List.append_assoc, List.cons_append])
        have hle := length_payloads_le b (.called n callee q :: a)
        refine if_neg ?_
        omega
      | _ => rfl
    rw [heq, calls_append, hbefore, List.nil_append]
    rfl
  rw [hcalls]
  rcases hserved with ⟨frame, -, -, hunder, hdue⟩ | ⟨-, during, later, rfl, -, hduring, hlater⟩
  · exact ⟨⟨_, hdue⟩, fun hmem => absurd hmem hunder⟩
  · have hall : calls (during ++ .delivered number :: later) number = before.due kind.type := by
      rw [calls_append, hduring]
      exact (congrArg _ hlater).trans (List.append_nil _)
    exact ⟨hall ▸ List.prefix_refl _, fun _ => hall⟩

/-- **Who calls** is a publication that began before, for the callee among others, and is not delivered yet. -/
theorem Reaches.begun_of_called {tasks : List (Task σ)} (reached : Reaches behave depth shared f tasks)
    {before : History} {callee : Callee} {p : Payload}
    (heq : f.history = before ++ .called number callee p :: after) :
    ∃ (earlier : History) (kind : EventKind) (properties : Properties) (q : Payload) (during : History),
      before = earlier ++ .publishing kind properties (.begun number q) :: during ∧
      .delivered number ∉ during ∧ callee ∈ earlier.due kind.type := by
  have hf := reached.accounted
  have hnumbered (b : History) (kind : EventKind) (properties : Properties) (n : Nat) (q : Payload) (a : History)
      (hb : before = b ++ .publishing kind properties (.begun n q) :: a) : n = b.payloads.length :=
    (hf.served b kind properties n q (a ++ .called number callee p :: after) (by simp [heq, hb])).1
  obtain ⟨earlier, kind, properties, q, during, rfl⟩ :=
    exists_begun_of_numbered hnumbered (hf.late before number callee p after heq)
  rw [List.append_assoc, List.cons_append] at heq
  have hcalled : callee ∈ calls (during ++ .called number callee p :: after) number := by
    rw [calls_append]
    simp [calls]
  refine ⟨earlier, kind, properties, q, during, rfl, ?_, ?_⟩
  · rcases (hf.served _ _ _ _ _ _ heq).2 with ⟨-, -, -, hunder, -⟩ | ⟨-, d, later, hsplit, hfirst, -, hlater⟩
    · exact fun hmem => hunder (List.mem_append_left _ hmem)
    · rcases split_append hsplit with ⟨a, -, rfl⟩ | ⟨b, rfl, -⟩
      · rw [calls_append] at hlater
        simp [calls] at hlater
      · exact fun hmem => hfirst (List.mem_append_left _ hmem)
  · have hfront := (reached.calls_begun heq).1
    refine hfront.subset ?_
    rw [heq, calls_append]
    exact List.mem_append_right _ hcalled

end Floor

/-! ### The subscription of a wrapper -/

namespace History

variable {h before m : History} {s t : Subscription} {n id : Nat}

/-- What stands stood before or was made since. -/
theorem mem_subscriptions_append (hs : s ∈ subscriptions (h ++ m)) : s ∈ h.subscriptions ∨ s ∈ made m := by
  induction m using List.reverseRecOn with
  | nil => exact .inl (by simpa using hs)
  | append_singleton m e ih =>
    rw [← List.append_assoc, subscriptions_concat] at hs
    rw [made_append, List.mem_append]
    have hbefore (hs : s ∈ subscriptions (h ++ m)) : s ∈ h.subscriptions ∨ s ∈ made m ∨ s ∈ made [e] :=
      (ih hs).imp_right .inl
    cases e with
    | subscribed t =>
      rcases List.mem_append.mp hs with hs | hs
      · exact hbefore hs
      · exact .inr (.inr hs)
    | unsubscribed t => exact hbefore (List.mem_of_mem_erase hs)
    | closed => cases hs
    | amended | publishing | called | delivered => exact hbefore hs

/-- With a wrapper of its own, a subscription stands at most once. -/
theorem count_subscriptions_le_one (hwrapped : Wrapped h) (honce : s.callee = .once n id) :
    h.subscriptions.count s ≤ 1 :=
  Nat.le_trans ((subscriptions_sublist_made h).count_le s) (hwrapped.count_le_one (by rw [wrapper?, honce]))

/-- When it has ended, it never stands again. -/
theorem not_mem_subscriptions_unsubscribed (hwrapped : Wrapped (before ++ .unsubscribed s :: m))
    (honce : s.callee = .once n id) (hs : s ∈ made before) :
    s ∉ subscriptions (before ++ .unsubscribed s :: m) := by
  intro hstands
  rw [List.append_cons] at hstands
  rcases mem_subscriptions_append hstands with hmem | hmem
  · rw [subscriptions_concat] at hmem
    have hcount := count_subscriptions_le_one hwrapped.left honce
    have hleft : (before.subscriptions.erase s).count s = before.subscriptions.count s - 1 :=
      List.count_erase_self
    have := List.count_pos_iff.mpr hmem
    show False
    change 0 < (before.subscriptions.erase s).count s at this
    omega
  · have hcount := hwrapped.count_le_one (s := s) (by rw [wrapper?, honce])
    rw [made_append, List.count_append] at hcount
    have hbefore := List.count_pos_iff.mpr hs
    have hlater := List.count_pos_iff.mpr hmem
    have heq : made (.unsubscribed s :: m) = made m := rfl
    rw [heq] at hcount
    omega

/-- The subscription of a wrapper is the only one that calls it. -/
theorem callee_eq_iff (hwrapped : Wrapped (before ++ m)) (hs : s ∈ made (before ++ m))
    (honce : s.callee = .once n id) (ht : t ∈ before.subscriptions) : t.callee = s.callee ↔ t = s := by
  refine ⟨fun heq => ?_, fun heq => heq ▸ rfl⟩
  have htmade : t ∈ made (before ++ m) := by
    rw [made_append]
    exact List.mem_append_left _ ((subscriptions_sublist_made before).subset ht)
  exact hwrapped.eq_of_wrapper htmade hs (by rw [wrapper?, heq, honce]) (by rw [wrapper?, honce])

/-- A wrapper is to be called for an event if its subscription stands, and is to the event or to all. -/
theorem mem_due_once (hwrapped : Wrapped (before ++ m)) (hs : s ∈ made (before ++ m))
    (honce : s.callee = .once n id) {type : String} :
    s.callee ∈ before.due type ↔ s ∈ before.subscriptions ∧ (s.key = type ∨ s.key = allEvents) := by
  have hstanding (key : String) : s.callee ∈ before.standing key ↔ s ∈ before.subscriptions ∧ s.key = key := by
    unfold standing
    simp only [List.mem_map, List.mem_filter, beq_iff_eq]
    constructor
    · rintro ⟨t, ⟨ht, hkey⟩, hcallee⟩
      obtain rfl := (callee_eq_iff hwrapped hs honce ht).mp hcallee
      exact ⟨ht, hkey⟩
    · rintro ⟨hmem, hkey⟩
      exact ⟨s, ⟨hmem, hkey⟩, rfl⟩
  rw [due, List.mem_append, hstanding, hstanding, and_or_left]

/-- A wrapper is to be called once for an event, unless that goes by the name of all events. -/
theorem count_due_once (hwrapped : Wrapped (before ++ m)) (hs : s ∈ made (before ++ m))
    (honce : s.callee = .once n id) {type : String} (htype : type ≠ allEvents) :
    (before.due type).count s.callee ≤ 1 := by
  rw [count_due before htype]
  refine Nat.le_trans ?_ (count_subscriptions_le_one hwrapped.left honce)
  rw [List.count_eq_countP]
  refine List.countP_mono_left fun t ht hcalls => ?_
  obtain ⟨-, hcallee⟩ := Bool.and_eq_true_iff.mp hcalls
  exact beq_iff_eq.mpr ((callee_eq_iff hwrapped hs honce ht).mp (eq_of_beq hcallee))

/-- Something is a call of a callee. -/
def isCall (callee : Callee) : Event → Bool
  | .called _ called _ => called == callee
  | _ => false

/-- How often a callee was called, for whatever publication. -/
def told (h : History) (callee : Callee) : Nat := h.countP (isCall callee)

/-- Publications follow each other: when one has begun, none that began before calls anybody. -/
def Successive (h : History) : Prop :=
  ∀ before kind properties number p after, h = before ++ .publishing kind properties (.begun number p) :: after →
    ∀ earlier callee q, .called earlier callee q ∈ after → number ≤ earlier

/-- What was called was called a first time. -/
theorem exists_called {callee : Callee} (hpos : 0 < told h callee) :
    ∃ before number p after, h = before ++ .called number callee p :: after ∧
      told h callee = told after callee + 1 := by
  induction h with
  | nil => cases hpos
  | cons e h ih =>
    by_cases hcall : isCall callee e = true
    · cases e with
      | called number called p =>
        obtain rfl : called = callee := eq_of_beq hcall
        exact ⟨[], number, p, h, rfl, List.countP_cons_of_pos hcall⟩
      | _ => cases hcall
    · have hrest : told (e :: h) callee = told h callee := List.countP_cons_of_neg hcall
      rw [hrest] at hpos ⊢
      obtain ⟨before, number, p, after, rfl, htold⟩ := ih hpos
      exact ⟨e :: before, number, p, after, rfl, htold⟩

/-- A call adds to the calls of its publication. -/
theorem calls_called (m : History) (number : Nat) (callee : Callee) (p : Payload) :
    calls (.called number callee p :: m) number = callee :: calls m number :=
  List.filterMap_cons_some (if_pos rfl)

end History

namespace Floor

open History

variable {σ : Type} {f : Floor σ} {behave : Behaviour σ} {depth : Nat} {shared : σ}

section

variable {tasks : List (Task σ)} {s : Subscription} {n id number : Nat} {before after : History} {p : Payload}

/-- Who calls a wrapper began while its subscription stood, and is not delivered yet. -/
theorem Reaches.begun_of_called_once (reached : Reaches behave depth shared f tasks) (hs : s ∈ made f.history)
    (honce : s.callee = .once n id) (heq : f.history = before ++ .called number s.callee p :: after) :
    ∃ (earlier : History) (kind : EventKind) (properties : Properties) (q : Payload) (during : History),
      before = earlier ++ .publishing kind properties (.begun number q) :: during ∧
      .delivered number ∉ during ∧ s ∈ earlier.subscriptions := by
  obtain ⟨earlier, kind, properties, q, during, rfl, hunder, hdue⟩ := reached.begun_of_called heq
  rw [List.append_assoc] at heq
  have hwrapped := reached.numbers.wrapped
  rw [heq] at hwrapped hs
  exact ⟨earlier, kind, properties, q, during, rfl, hunder, ((mem_due_once hwrapped hs honce).mp hdue).1⟩

/-- **A publication calls a wrapper at most once**, if its subscription stood when it began; it did so when it is
delivered. -/
theorem Reaches.calls_once (reached : Reaches behave depth shared f tasks) (hs : s ∈ made f.history)
    (honce : s.callee = .once n id) {kind : EventKind} {properties : Properties}
    (heq : f.history = before ++ .publishing kind properties (.begun number p) :: after) :
    (kind.type ≠ allEvents → (calls f.history number).count s.callee ≤ 1) ∧
      (s.callee ∈ calls f.history number → s ∈ before.subscriptions) ∧
      (.delivered number ∈ after → (s.callee ∈ calls f.history number ↔
        s ∈ before.subscriptions ∧ (s.key = kind.type ∨ s.key = allEvents))) := by
  obtain ⟨hfront, hall⟩ := reached.calls_begun heq
  have hwrapped := reached.numbers.wrapped
  rw [heq] at hwrapped hs
  refine ⟨fun htype => ?_, fun hcalled => ?_, fun hdelivered => ?_⟩
  · exact Nat.le_trans (hfront.sublist.count_le _) (count_due_once hwrapped hs honce htype)
  · exact ((mem_due_once hwrapped hs honce).mp (hfront.subset hcalled)).1
  · rw [hall hdelivered]
    exact mem_due_once hwrapped hs honce

/-- **A wrapper that is called is released**, and its subscription never stands again. -/
theorem Reaches.released_once (reached : Reaches behave depth shared f tasks) (hs : s ∈ made f.history)
    (honce : s.callee = .once n id) (heq : f.history = before ++ .called number s.callee p :: after) :
    ∃ later, after = .unsubscribed s :: later ∧ ∀ m rest, later = m ++ rest →
      s ∉ History.subscriptions (before ++ .called number s.callee p :: .unsubscribed s :: m) := by
  have hwrapped := reached.numbers.wrapped
  have hcalled := heq
  rw [honce] at hcalled
  obtain ⟨t, later, ht, hcallee, rfl⟩ := reached.freed.released before number n id p after hcalled
  obtain rfl : s = t := hwrapped.eq_of_wrapper hs ht (by rw [wrapper?, honce]) (by rw [wrapper?, hcallee])
  refine ⟨later, rfl, ?_⟩
  rintro m rest rfl
  have hmade : s ∈ made (before ++ [.called number s.callee p]) := by
    -- who calls it found it subscribed
    obtain ⟨earlier, kind, properties, q, during, rfl, -, hstood⟩ := reached.begun_of_called_once hs honce heq
    simp only [made_append, List.mem_append]
    exact .inl (.inl ((subscriptions_sublist_made earlier).subset hstood))
  have hpiece : Wrapped ((before ++ [.called number s.callee p]) ++ .unsubscribed s :: m) := by
    refine Wrapped.left (m := rest) ?_
    rw [heq] at hwrapped
    simpa using hwrapped
  rw [List.append_cons]
  exact not_mem_subscriptions_unsubscribed hpiece honce hmade

/-- **Who calls a wrapper again** is another publication, which was under way when it was called first. -/
theorem Reaches.called_again (reached : Reaches behave depth shared f tasks) (hs : s ∈ made f.history)
    (honce : s.callee = .once n id) {between : History} {number' : Nat} {p' : Payload}
    (heq : f.history =
      before ++ .called number s.callee p :: (between ++ .called number' s.callee p' :: after)) :
    ∃ (earlier : History) (kind : EventKind) (properties : Properties) (q : Payload) (during : History),
      before = earlier ++ .publishing kind properties (.begun number' q) :: during ∧
      .delivered number' ∉ during ∧ s ∈ earlier.subscriptions ∧ (kind.type ≠ allEvents → number' ≠ number) := by
  have hsecond : f.history =
      (before ++ .called number s.callee p :: between) ++ .called number' s.callee p' :: after := by
    rw [heq, List.append_assoc, List.cons_append]
  obtain ⟨earlier, kind, properties, q, during, hearlier, hunder, hstood⟩ :=
    reached.begun_of_called_once hs honce hsecond
  rcases split_append hearlier with ⟨during', rfl, rfl⟩ | ⟨b, rfl, hbetween⟩
  · refine ⟨earlier, kind, properties, q, during', rfl, fun hmem => hunder (List.mem_append_left _ hmem), hstood,
      fun htype hsame => ?_⟩
    -- one publication would call it twice
    subst hsame
    rw [List.append_assoc, List.cons_append] at heq
    have hcount := (reached.calls_once hs honce heq).1 htype
    rw [heq, List.append_cons] at hcount
    simp only [calls_append, calls_called, List.count_append, List.count_cons_self] at hcount
    omega
  · -- it would have begun after the first call, and found nobody subscribed
    exfalso
    obtain ⟨later, hlater, hnever⟩ := reached.released_once hs honce heq
    cases b with
    | nil => cases hbetween
    | cons e b =>
      obtain ⟨rfl, rfl⟩ := List.cons.inj hbetween
      cases b with
      | nil => cases hlater
      | cons e b =>
        obtain ⟨rfl, rfl⟩ := List.cons.inj hlater
        exact hnever b _ (List.append_assoc ..) hstood

/-- **A wrapper is called at most once while publications follow each other.** -/
theorem Reaches.told_le_one (reached : Reaches behave depth shared f tasks) (hs : s ∈ made f.history)
    (honce : s.callee = .once n id)
    (htypes : ∀ kind properties start, .publishing kind properties start ∈ f.history → kind.type ≠ allEvents)
    (hsuccessive : Successive f.history) : told f.history s.callee ≤ 1 := by
  by_contra hmore
  obtain ⟨before, number, p, rest, hfirst, htold⟩ := @exists_called f.history s.callee (by omega)
  obtain ⟨between, number', p', after, rfl, -⟩ := @exists_called rest s.callee (by omega)
  obtain ⟨b, kind, properties, q, d, hb, -⟩ := reached.begun_of_called_once hs honce hfirst
  obtain ⟨b', kind', properties', q', d', hb', -, -, hother⟩ := reached.called_again hs honce hfirst
  have hle : number ≤ number' := by
    have hsplit := hfirst
    rw [hb, List.append_assoc, List.cons_append] at hsplit
    exact hsuccessive _ _ _ _ _ _ hsplit number' s.callee p' (by simp)
  have hle' : number' ≤ number := by
    have hsplit := hfirst
    rw [hb', List.append_assoc, List.cons_append] at hsplit
    exact hsuccessive _ _ _ _ _ _ hsplit number s.callee p (by simp)
  have hmem : .publishing kind' properties' (.begun number' q') ∈ f.history := by simp [hfirst, hb']
  exact hother (htypes kind' properties' _ hmem) (Nat.le_antisymm hle' hle)

end

/-! ## The headline -/

/-- **Who tells a subscription for a single delivery.** Whatever is reached on a bus, by any tasks and callbacks
in any order, take a subscription for a single delivery.

* A publication calls its wrapper at most once, and only if it began while the subscription stood; one that did,
  for the event or for a subscription to all, has called it when it is delivered.
* When the wrapper is called, its subscription ends, and it never stands again; so a publication that begins
  later never calls it.
* If the wrapper is called once more, then by another publication, which had begun before the first call and was
  still under way.

So it is called at most once as long as publications follow each other. Only an event that goes by the name of
all events reaches a subscription in two ways. -/
theorem told_by_those_begun_before {tasks : List (Task σ)} (reached : Reaches behave depth shared f tasks)
    {s : Subscription} {n id : Nat} (hs : s ∈ made f.history) (honce : s.callee = .once n id) :
    let h := f.history
    (∀ (before : History) kind properties number p after,
      h = before ++ .publishing kind properties (.begun number p) :: after →
        (kind.type ≠ allEvents → (calls h number).count s.callee ≤ 1) ∧
        (s.callee ∈ calls h number → s ∈ before.subscriptions) ∧
        (.delivered number ∈ after → (s.callee ∈ calls h number ↔
          s ∈ before.subscriptions ∧ (s.key = kind.type ∨ s.key = allEvents)))) ∧
    (∀ (before : History) number p after, h = before ++ .called number s.callee p :: after →
      ∃ later, after = .unsubscribed s :: later ∧ ∀ m rest, later = m ++ rest →
        s ∉ History.subscriptions (before ++ .called number s.callee p :: .unsubscribed s :: m)) ∧
    (∀ (before : History) number p between number' p' after,
      h = before ++ .called number s.callee p :: (between ++ .called number' s.callee p' :: after) →
        ∃ (earlier : History) (kind : EventKind) (properties : Properties) (q : Payload) (during : History),
          before = earlier ++ .publishing kind properties (.begun number' q) :: during ∧
          .delivered number' ∉ during ∧ s ∈ earlier.subscriptions ∧
          (kind.type ≠ allEvents → number' ≠ number)) ∧
    ((∀ kind properties start, .publishing kind properties start ∈ h → kind.type ≠ allEvents) → Successive h →
      told h s.callee ≤ 1) := by
  intro h
  refine ⟨?_, ?_, ?_, reached.told_le_one hs honce⟩
  · intro before kind properties number p after heq
    exact reached.calls_once hs honce heq
  · intro before number p after heq
    exact reached.released_once hs honce heq
  · intro before number p between number' p' after heq
    exact reached.called_again hs honce heq

/-- Of two subscriptions for a single delivery the first publishes the event again. The second was subscribed when
either publication began, and is told by both: by the inner one first, and then by the outer one, which was under
way. -/
theorem second_of_two_told_by_both :
    let saved : EventKind := ⟨"saved", "Saved", fun ms => .valid ms⟩
    let given : Properties := .record "Saved" []
    let behave : Behaviour Unit := fun id _ => if id = 0 then .publish saved given fun _ => .done else .done
    let program : Program Unit := .subscribe .once "saved" 0 fun _ => .subscribe .once "saved" 1 fun _ =>
      .publish saved given fun _ => .done
    let h := (run (publishTo behave 2) program (new ())).1.history
    let c : Callee := .once 1 1
    calls h 0 = [.once 0 0, c] ∧ (calls h 0).count c ≤ 1 ∧ calls h 1 = [c] ∧ (calls h 1).count c ≤ 1 ∧
      ∃ before between after p p', h = before ++ .called 1 c p :: (between ++ .called 0 c p' :: after) ∧
        ∃ earlier kind properties q during, before = earlier ++ .publishing kind properties (.begun 0 q) :: during ∧
          .delivered 0 ∉ during := by
  intro saved given behave program h c
  let p : Payload := ⟨"saved", []⟩
  let s : Subscription := ⟨"saved", c⟩
  let first : History := [.subscribed ⟨"saved", .once 0 0⟩, .subscribed s]
  let before : History := first ++ [.publishing saved given (.begun 0 p), .called 0 (.once 0 0) p,
    .unsubscribed ⟨"saved", .once 0 0⟩]
  have hh : h = before ++ [.publishing saved given (.begun 1 p), .called 1 c p, .unsubscribed s, .delivered 1,
    .called 0 c p, .unsubscribed s, .delivered 0] := by rfl
  have hreached : Reaches behave 2 () _ _ := Reaches.new.run program
  have hs : s ∈ made h := by
    rw [hh]
    decide
  obtain ⟨hpublications, -, hagain, -⟩ := told_by_those_begun_before hreached hs rfl
  obtain ⟨houter, -⟩ := hpublications first saved given 0 p _ hh
  obtain ⟨hinner, -⟩ := hpublications before saved given 1 p _ hh
  have htwice : h = (before ++ [.publishing saved given (.begun 1 p)]) ++ .called 1 c p ::
      ([.unsubscribed s, .delivered 1] ++ .called 0 c p :: [.unsubscribed s, .delivered 0]) := by rfl
  obtain ⟨earlier, kind, properties, q, during, hbegun, hunder, -⟩ := hagain _ 1 p _ 0 p _ htwice
  refine ⟨?_, houter (by decide), ?_, hinner (by decide), _, _, _, p, p, htwice, earlier, kind, properties, q,
    during, hbegun, hunder⟩ <;> rw [hh] <;> decide

/-- The second of two subscriptions for a single delivery is told twice, when the first publishes in turn. An
event that goes by the name of all events is told twice at once. -/
theorem single_delivery_told_twice :
    let saved : EventKind := ⟨"saved", "Saved", fun ms => .valid ms⟩
    let all : EventKind := ⟨allEvents, "Saved", fun ms => .valid ms⟩
    let given : Properties := .record "Saved" []
    let behave : Behaviour Unit := fun id _ => if id = 0 then .publish saved given fun _ => .done else .done
    let history (program : Program Unit) : History := (run (publishTo behave 2) program (new ())).1.history
    let h := history (.subscribe .once "saved" 0 fun _ => .subscribe .once "saved" 1 fun _ =>
      .publish saved given fun _ => .done)
    let h' := history (.subscribe .once allEvents 1 fun _ => .publish all given fun _ => .done)
    (made h).count ⟨"saved", .once 1 1⟩ = 1 ∧ told h (.once 1 1) = 2 ∧
      (made h').count ⟨allEvents, .once 0 1⟩ = 1 ∧ told h' (.once 0 1) = 2 := by
  decide +kernel

end Floor

end EditorServices.Bus
