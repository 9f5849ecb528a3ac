import Mathlib.Data.List.Induction
import EditorServices.Bus.Publishing

/-!
# `Proofs.Bus.Delivery` — an event reaches those who are subscribed when it is published

Callbacks do what they like to the bus while an event is on its way, and also publish, to any depth. What they
do is read off the history of the bus alone: who is subscribed at some moment, which payloads there are, and
who is called for a publication. A publication is settled by the history before it, and what comes after it
adds nothing to it.

## Contents
- **Reading a history.** `History.subscriptions`, `History.payloads`, `History.calls` and `History.startOf`.
- **Wholeness.** `Whole`: in a piece of history every publication is begun, and brought to its end, as the
  history before it demands. Pieces are put together by `Whole.append`.
- **What each call to the bus does.** `Kept` and `Proceeds`, up to whole programs and publications.
- **The headline.** `published_to_all_standing`.
-/

namespace EditorServices.Bus

/-! ## Reading a history -/

namespace History

/-- The subscriptions after something happened. Ending a subscription ends the earliest one that is equal. -/
def resubscribed (ss : List Subscription) : Event → List Subscription
  | .subscribed s => ss ++ [s]
  | .unsubscribed t => ss.erase t
  | .closed => []
  | _ => ss

/-- The subscriptions there are, in the order in which they were made. -/
def subscriptions (h : History) : List Subscription := h.foldl resubscribed []

/-- Who is subscribed under a key. -/
def standing (h : History) (key : String) : List Callee :=
  (h.subscriptions.filter (·.key == key)).map (·.callee)

/-- Whether the bus was closed. -/
def isClosed (h : History) : Bool :=
  h.any fun
    | .closed => true
    | _ => false

/-- The payloads after something happened. -/
def restated (ps : List Payload) : Event → List Payload
  | .publishing _ _ (.begun _ p) => ps ++ [p]
  | .amended number p => ps.set number p
  | _ => ps

/-- The payloads of all publications, as they are by now. -/
def payloads (h : History) : List Payload := h.foldl restated []

/-- Who is called for a publication. -/
def calls (h : History) (number : Nat) : List Callee :=
  h.filterMap fun
    | .called m callee _ => if m = number then some callee else none
    | _ => none

/-- The number of publications under way after something happened. -/
def recounted (n : Nat) : Event → Nat
  | .publishing _ _ (.begun _ _) => n + 1
  | .delivered _ => n - 1
  | _ => n

/-- How many publications are under way: they were begun and are not delivered yet. -/
def underWay (h : History) : Nat := h.foldl recounted 0

/-- What has to come of the wish to publish, if publications may wait for each other to a depth. -/
def startOf (depth : Nat) (h : History) (kind : EventKind) (properties : Properties) : Start :=
  if h.underWay = depth then .tooDeep
  else if h.isClosed then .dropped
  else match kind.accept properties with
    | .error f => .refused f
    | .ok ms => .begun h.payloads.length ⟨kind.type, ms⟩

/-- Who has to be called for an event: those subscribed to its type, and then those subscribed to all. -/
def due (h : History) (type : String) : List Callee := h.standing type ++ h.standing allEvents

variable {h m m' : History} {depth number : Nat}

theorem subscriptions_concat (h : History) (e : Event) :
    subscriptions (h ++ [e]) = resubscribed h.subscriptions e := List.foldl_append ..

theorem payloads_concat (h : History) (e : Event) : payloads (h ++ [e]) = restated h.payloads e :=
  List.foldl_append ..

theorem underWay_concat (h : History) (e : Event) : underWay (h ++ [e]) = recounted h.underWay e :=
  List.foldl_append ..

theorem isClosed_concat (h : History) (e : Event) : isClosed (h ++ [e]) = (h.isClosed || isClosed [e]) :=
  List.any_append

theorem calls_append (m m' : History) (number : Nat) :
    calls (m ++ m') number = m.calls number ++ m'.calls number := List.filterMap_append

/-- Publications only become more. -/
theorem length_payloads_le (h m : History) : h.payloads.length ≤ (payloads (h ++ m)).length := by
  induction m using List.reverseRecOn with
  | nil => simp
  | append_singleton m e ih =>
    rw [← List.append_assoc, payloads_concat]
    refine Nat.le_trans ih ?_
    unfold restated
    split <;> simp

/-- What is begun has a number of its own, on a bus that is open, with properties that were accepted. -/
theorem startOf_eq_begun {kind : EventKind} {properties : Properties} {p : Payload}
    (hstart : Start.begun number p = startOf depth h kind properties) :
    number = h.payloads.length ∧ h.isClosed = false ∧
      ∃ ms, kind.accept properties = .ok ms ∧ p = ⟨kind.type, ms⟩ := by
  unfold startOf at hstart
  split at hstart
  · cases hstart
  · split at hstart
    · cases hstart
    · next hopen =>
      split at hstart
      · cases hstart
      · next ms haccept =>
        cases hstart
        exact ⟨rfl, Bool.eq_false_iff.mpr hopen, ms, haccept, rfl⟩

/-- How often someone is called for an event: as often as subscribed to it, in one way or the other. -/
theorem count_due (h : History) {type : String} (htype : type ≠ allEvents) (callee : Callee) :
    (h.due type).count callee =
      h.subscriptions.countP fun s => (s.key == type || s.key == allEvents) && s.callee == callee := by
  unfold due standing
  generalize h.subscriptions = ss
  induction ss with
  | nil => rfl
  | cons s rest ih =>
    rw [List.count_append] at ih ⊢
    by_cases hkey : s.key = type
    · simp [List.countP_cons, List.count_cons, hkey, htype] at ih ⊢
      omega
    · by_cases hall : s.key = allEvents
      · simp [List.countP_cons, List.count_cons, hall, htype.symm] at ih ⊢
        omega
      · simp [hkey, hall] at ih ⊢
        exact ih

/-! ## Wholeness -/

/-- An event is right between what happened before and after it. For whom a publication is is settled by the
history before it, and all of them are called until it is delivered. A call hands over the payload as it is by
then. It belongs to a publication that is no older than `least`, unless it belongs to one that is given. -/
def Right (depth : Nat) (own : Option Nat) (least : Nat) (before after : History) : Event → Prop
  | .publishing kind properties start =>
    start = startOf depth before kind properties ∧
      ∀ number p, start = .begun number p → ∃ during later,
        after = during ++ .delivered number :: later ∧
        calls during number = before.due kind.type ∧ calls later number = []
  | .called number _ p => before.payloads[number]? = some p ∧ (own = some number ∨ least ≤ number)
  | _ => True

/-- After a history comes a piece in which every event is right, and no publication is left over for later. -/
def Whole (depth : Nat) (own : Option Nat) (h m : History) : Prop :=
  ∀ b e a, m = b ++ e :: a → Right depth own h.payloads.length (h ++ b) a e

variable {own : Option Nat}

theorem whole_nil (depth : Nat) (own : Option Nat) (h : History) : Whole depth own h [] := by
  intro b e a heq
  simp at heq

/-- A piece of history with a single event. -/
theorem whole_single {e : Event} (hright : Right depth own h.payloads.length h [] e) :
    Whole depth own h [e] := by
  intro b e' a heq
  rcases List.append_eq_singleton_iff.mp heq.symm with ⟨rfl, heq⟩ | ⟨-, heq⟩
  · cases heq
    simpa using hright
  · cases heq

/-- An event of two pieces is one of the first or of the second. -/
theorem split_append {m m' b a : History} {e : Event} (heq : m ++ m' = b ++ e :: a) :
    (∃ a', m = b ++ e :: a' ∧ a = a' ++ m') ∨ ∃ b', b = m ++ b' ∧ m' = b' ++ e :: a := by
  rcases List.append_eq_append_iff.mp heq with ⟨b', hb, hm'⟩ | ⟨c, hm, hc⟩
  · exact Or.inr ⟨b', hb, hm'⟩
  · cases c with
    | nil => exact Or.inr ⟨[], by simpa using hm.symm, hc.symm⟩
    | cons e' a' =>
      obtain ⟨rfl, rfl⟩ := List.cons.inj hc
      exact Or.inl ⟨a', hm, rfl⟩

/-- A piece calls nobody for an older publication than its own. -/
theorem Whole.calls_eq_nil (hm : Whole depth own h m)
    (hown : own ≠ some number) (holder : number < h.payloads.length) : m.calls number = [] := by
  apply List.filterMap_eq_nil_iff.mpr
  intro e he
  obtain ⟨b, a, rfl⟩ := List.append_of_mem he
  have hright := hm b e a rfl
  cases e with
  | called n callee p =>
    have hle : h.payloads.length ≤ n ∨ own = some n := hright.2.symm
    refine if_neg fun heq => ?_
    subst heq
    rcases hle with hle | hsome
    · omega
    · exact hown hsome
  | _ => rfl

/-- Pieces are put together: what comes later calls nobody for the publications of the first piece. -/
theorem Whole.append (hown : ∀ number, own = some number → number < h.payloads.length)
    (hm : Whole depth own h m) (hm' : Whole depth own (h ++ m) m') : Whole depth own h (m ++ m') := by
  intro b e a heq
  rcases split_append heq with ⟨a', rfl, rfl⟩ | ⟨b', rfl, rfl⟩
  · have hright := hm b e a' rfl
    cases e with
    | publishing kind properties start =>
      refine ⟨hright.1, fun number p hstart => ?_⟩
      obtain ⟨hnumber, -⟩ := startOf_eq_begun (hstart ▸ hright.1)
      have hlate := length_payloads_le h b
      have hother : own ≠ some number := fun heq => by
        have := hown number heq
        omega
      have hknown : number < (payloads (h ++ (b ++ .publishing kind properties start :: a'))).length := by
        have hle := length_payloads_le (h ++ b ++ [.publishing kind properties start]) a'
        rw [payloads_concat, hstart] at hle
        simp only [restated, List.length_append, List.length_singleton] at hle
        simp only [List.append_assoc, List.singleton_append, hstart] at hle ⊢
        omega
      obtain ⟨during, later, hpiece, hduring, hlater⟩ := hright.2 number p hstart
      refine ⟨during, later ++ m', ?_, hduring, ?_⟩
      · rw [hpiece, List.append_assoc, List.cons_append]
      · rw [calls_append, hlater, hm'.calls_eq_nil hother hknown, List.append_nil]
    | called number callee p => exact hright
    | _ => trivial
  · have hright := hm' b' e a rfl
    have hle := length_payloads_le h m
    rw [← List.append_assoc]
    cases e with
    | publishing kind properties start => exact hright
    | called number callee p => exact ⟨hright.1, hright.2.imp id (Nat.le_trans hle)⟩
    | _ => trivial

/-- Without an own publication a piece is whole beside any. -/
theorem Whole.beside (hm : Whole depth none h m) (own : Option Nat) : Whole depth own h m := by
  intro b e a heq
  have hright := hm b e a heq
  cases e with
  | called number callee p => exact ⟨hright.1, Or.inr (hright.2.resolve_left (by simp))⟩
  | publishing kind properties start => exact hright
  | _ => trivial

/-- A publication is begun, all for whom it is are called, and it is delivered. -/
theorem whole_delivered {kind : EventKind} {properties : Properties} {p : Payload}
    (hstart : .begun number p = startOf depth h kind properties)
    (hm : Whole depth (some number) (h ++ [.publishing kind properties (.begun number p)]) m)
    (hcalls : m.calls number = h.due kind.type) :
    Whole depth none h (.publishing kind properties (.begun number p) :: (m ++ [.delivered number])) := by
  obtain ⟨hnumber, -⟩ := startOf_eq_begun hstart
  have hlength : (payloads (h ++ [.publishing kind properties (.begun number p)])).length =
      h.payloads.length + 1 := by
    rw [payloads_concat]
    simp [restated]
  have hm' : Whole depth (some number) (h ++ [.publishing kind properties (.begun number p)])
      (m ++ [.delivered number]) := by
    apply hm.append
    · intro n heq
      cases heq
      omega
    · exact whole_single trivial
  intro b e a heq
  cases b with
  | nil =>
    obtain ⟨rfl, rfl⟩ := List.cons.inj heq
    rw [List.append_nil]
    refine ⟨hstart, fun n q hn => ?_⟩
    cases hn
    exact ⟨m, [], rfl, hcalls, rfl⟩
  | cons first b =>
    obtain ⟨rfl, hpiece⟩ := List.cons.inj heq
    have hright := hm' b e a hpiece
    rw [List.append_assoc, List.singleton_append] at hright
    cases e with
    | publishing kind properties start => exact hright
    | called n callee q =>
      refine ⟨hright.1, Or.inr ?_⟩
      rcases hright.2 with hown | hle
      · cases hown
        omega
      · omega
    | _ => trivial

end History

namespace Floor

open History

variable {σ : Type} {f f' f'' : Floor σ} {depth level number : Nat} {own : Option Nat}
  {told told' : List Callee}

/-! ## What each call to the bus does -/

/-- The bus and the payloads are what the history says, and some publications are under way. -/
structure Kept (level : Nat) (f : Floor σ) : Prop where
  subscriptions : f.bus.subscriptions = f.history.subscriptions
  closed : f.bus.closed = f.history.isClosed
  payloads : f.payloads = f.history.payloads
  underWay : f.history.underWay = level

theorem kept_new (shared : σ) : (new shared).Kept 0 := ⟨rfl, rfl, rfl, rfl⟩

/-- From one floor to another a whole piece of history happens. In it those who are told are called for the own
publication. -/
structure Proceeds (depth level : Nat) (own : Option Nat) (told : List Callee) (f f' : Floor σ) :
    Prop where
  kept : f'.Kept level
  piece : ∃ m, f'.history = f.history ++ m ∧ Whole depth own f.history m ∧
    ∀ number, own = some number → calls m number = told

namespace Proceeds

/-- Nothing happens. -/
theorem idle (hf' : f'.Kept level) (hhistory : f'.history = f.history) :
    Proceeds depth level own [] f f' := by
  refine ⟨hf', [], ?_, whole_nil _ _ _, fun _ _ => rfl⟩
  rw [hhistory, List.append_nil]

/-- Something happens for which nobody is called. -/
theorem single {e : Event} (hf' : f'.Kept level) (hhistory : f'.history = f.history ++ [e])
    (hright : Right depth none f.history.payloads.length f.history [] e) :
    Proceeds depth level none [] f f' :=
  ⟨hf', [e], hhistory, whole_single hright, fun _ h => by cases h⟩

theorem trans (hf : f.Kept level) (hown : ∀ number, own = some number → number < f.payloads.length)
    (h : Proceeds depth level own told f f') (h' : Proceeds depth level own told' f' f'') :
    Proceeds depth level own (told ++ told') f f'' := by
  obtain ⟨-, m, hm, hwhole, hcalls⟩ := h
  obtain ⟨hf'', m', hm', hwhole', hcalls'⟩ := h'
  refine ⟨hf'', m ++ m', ?_, ?_, fun number heq => ?_⟩
  · rw [hm', hm, List.append_assoc]
  · rw [hm] at hwhole'
    rw [hf.payloads] at hown
    exact hwhole.append hown hwhole'
  · rw [calls_append, hcalls number heq, hcalls' number heq]

/-- Two steps without an own publication. -/
theorem next (hf : f.Kept level) (h : Proceeds depth level none [] f f')
    (h' : Proceeds depth level none [] f' f'') : Proceeds depth level none [] f f'' :=
  h.trans hf (fun _ heq => by cases heq) h'

/-- What happens without an own publication calls nobody for an older one. -/
theorem beside (hf : f.Kept level) (hnumber : number < f.payloads.length)
    (h : Proceeds depth level none [] f f') : Proceeds depth level (some number) [] f f' := by
  obtain ⟨hf', m, hm, hwhole, -⟩ := h
  refine ⟨hf', m, hm, hwhole.beside _, fun n heq => ?_⟩
  cases heq
  rw [hf.payloads] at hnumber
  exact hwhole.calls_eq_nil (by simp) hnumber

/-- There are as many publications as before, or more. -/
theorem length_payloads_le (hf : f.Kept level) (h : Proceeds depth level own told f f') :
    f.payloads.length ≤ f'.payloads.length := by
  obtain ⟨hf', m, hm, -⟩ := h
  rw [hf.payloads, hf'.payloads, hm]
  exact History.length_payloads_le _ _

end Proceeds

/-- An open bus takes a subscription and gives a ticket for it; a closed one does neither. -/
theorem enter_cases (b : Bus) (mode : Mode) (type : String) (listener : Nat) :
    ((enter b mode type listener).2 = none ∧
        (enter b mode type listener).1.subscriptions = b.subscriptions ∧
        (enter b mode type listener).1.closed = b.closed) ∨
      ∃ s, (enter b mode type listener).2 = some s ∧
        (enter b mode type listener).1.subscriptions = b.subscriptions ++ [s] ∧
        (enter b mode type listener).1.closed = b.closed := by
  cases mode <;>
    simp only [enter, Bus.subscribe, Bus.subscribeAll, Bus.subscribeOnce, Bus.add] <;>
    by_cases hclosed : b.closed = true <;> simp [hclosed]

namespace Kept

/-- What is kept when one more thing happens. -/
theorem happened (hf : f.Kept level) {bus : Bus} {payloads : List Payload} {e : Event} {level' : Nat}
    (hsubscriptions : bus.subscriptions = resubscribed f.bus.subscriptions e)
    (hclosed : bus.closed = (f.bus.closed || isClosed [e]))
    (hpayloads : payloads = restated f.payloads e) (hlevel : level' = recounted level e) :
    ({ f with bus := bus, payloads := payloads }.happened [e]).Kept level' := by
  constructor
  · simp only [bus_happened, history_happened, subscriptions_concat, hsubscriptions, hf.subscriptions]
  · simp only [bus_happened, history_happened, isClosed_concat, hclosed, hf.closed]
  · simp only [payloads_happened, history_happened, payloads_concat, hpayloads, hf.payloads]
  · simp only [history_happened, underWay_concat, hlevel, hf.underWay]

theorem subscribe (hf : f.Kept level) (mode : Mode) (type : String) (listener : Nat) :
    Proceeds depth level none [] f (f.subscribe mode type listener).1 := by
  unfold Floor.subscribe
  rcases enter_cases f.bus mode type listener with ⟨hnone, hsame, hclosed⟩ | ⟨s, hsome, hmore, hclosed⟩
  · simp only [hnone, Option.map_none, Option.toList_none]
    apply Proceeds.idle
    · constructor
      · simp [hsame, hf.subscriptions]
      · simp [hclosed, hf.closed]
      · simp [hf.payloads]
      · simp [hf.underWay]
    · simp
  · simp only [hsome, Option.map_some, Option.toList_some]
    have hkept := hf.happened (e := .subscribed s) hmore (by simp [hclosed, isClosed]) rfl rfl
    exact .single hkept rfl trivial

theorem unsubscribe (hf : f.Kept level) (t : Ticket) :
    Proceeds depth level none [] f (f.unsubscribe t) := by
  have hkept : (f.unsubscribe t).Kept level :=
    hf.happened (e := .unsubscribed t) rfl (Bool.or_false _).symm rfl rfl
  exact .single hkept rfl trivial

theorem close (hf : f.Kept level) : Proceeds depth level none [] f f.close := by
  have hkept : f.close.Kept level := hf.happened (e := .closed) rfl (Bool.or_true _).symm rfl rfl
  exact .single hkept rfl trivial

theorem amend (hf : f.Kept level) (number : Nat) (p : Payload) :
    Proceeds depth level none [] f (f.amend number p) := by
  have hkept : (f.amend number p).Kept level :=
    hf.happened (e := .amended number p) rfl (Bool.or_false _).symm rfl rfl
  exact .single hkept rfl trivial

/-- **What a program does** is whole, if what it publishes is. -/
theorem run {publish : Publisher σ}
    (hpublish : ∀ f kind properties, f.Kept level →
      Proceeds depth level none [] f (publish f kind properties).1)
    (program : Program σ) (hf : f.Kept level) :
    Proceeds depth level none [] f (Floor.run publish program f).1 := by
  induction program generalizing f with
  | done => exact .idle hf rfl
  | fail text => exact .idle hf rfl
  | consult next ih => exact ih _ hf
  | keep change next ih =>
    have hkept : Kept level { f with shared := change f.shared } := { hf with }
    have hstep : Proceeds depth level none [] f { f with shared := change f.shared } := .idle hkept rfl
    exact hstep.next hf (ih hkept)
  | subscribe mode type listener next ih =>
    have hstep : Proceeds depth level none [] f _ := hf.subscribe mode type listener
    exact hstep.next hf (ih _ hstep.kept)
  | unsubscribe t next ih =>
    have hstep : Proceeds depth level none [] f _ := hf.unsubscribe t
    exact hstep.next hf (ih hstep.kept)
  | close next ih =>
    have hstep : Proceeds depth level none [] f _ := hf.close
    exact hstep.next hf (ih hstep.kept)
  | survey next ih => exact ih _ _ hf
  | look number next ih => exact ih _ hf
  | amend number p next ih =>
    have hstep : Proceeds depth level none [] f _ := hf.amend number p
    exact hstep.next hf (ih hstep.kept)
  | publish kind properties next ih =>
    have hstep := hpublish f kind properties hf
    exact hstep.next hf (ih _ hstep.kept)

theorem release (hf : f.Kept level) (s : Subscription) :
    Proceeds depth level none [] f (f.release s) := by
  unfold Floor.release
  split
  · exact hf.unsubscribe s
  · exact .idle hf rfl

/-- **A recipient is called once** for its publication, whatever it does then, and also if it fails. -/
theorem call {publish : Publisher σ} (behave : Behaviour σ) (type : String)
    (hpublish : ∀ f kind properties, f.Kept level →
      Proceeds depth level none [] f (publish f kind properties).1)
    (hf : f.Kept level) (hnumber : number < f.payloads.length) (s : Subscription) :
    Proceeds depth level (some number) [s.callee] f (Floor.call publish behave type number f s) := by
  have hpayload : f.payloads[number]? = some f.payloads[number] := List.getElem?_eq_getElem hnumber
  let e : Event := .called number s.callee f.payloads[number]
  have hown : ∀ n, some number = some n → n < f.payloads.length := by
    intro n heq
    cases heq
    exact hnumber
  have hcalled : Proceeds depth level (some number) [s.callee] f (f.happened [e]) := by
    refine ⟨hf.happened rfl (by simp [isClosed, e]) rfl rfl, [e], rfl,
      whole_single ⟨?_, Or.inl rfl⟩, ?_⟩
    · rw [← hf.payloads, hpayload]
    · intro n heq
      cases heq
      simp [calls, e]
  have hreleased : Proceeds depth level none [] (f.happened [e]) _ := hcalled.kept.release s
  have hran := hreleased.kept.run hpublish (behave s.callee.listenerId number)
  have hturn : Proceeds depth level (some number) [] (f.happened [e]) _ :=
    (hreleased.next hcalled.kept hran).beside hcalled.kept hnumber
  have hwhole := hcalled.trans hf hown hturn
  unfold Floor.call
  rw [hpayload]
  dsimp only
  split
  · next f' heq =>
    rw [heq] at hwhole
    exact hwhole
  · next f' text heq =>
    rw [heq] at hwhole
    -- the report is no part of the history
    exact ⟨{ hwhole.kept with }, hwhole.piece⟩

/-- **All recipients are called**, one after the other. -/
theorem callAll {publish : Publisher σ} (behave : Behaviour σ) (type : String)
    (hpublish : ∀ f kind properties, f.Kept level →
      Proceeds depth level none [] f (publish f kind properties).1)
    (recipients : List Subscription) (hf : f.Kept level) (hnumber : number < f.payloads.length) :
    Proceeds depth level (some number) (recipients.map (·.callee)) f
      (recipients.foldl (Floor.call publish behave type number) f) := by
  induction recipients generalizing f with
  | nil => exact .idle hf rfl
  | cons s rest ih =>
    have hfirst := hf.call behave type hpublish hnumber s
    have hrest := ih hfirst.kept (Nat.lt_of_lt_of_le hnumber (hfirst.length_payloads_le hf))
    have hown : ∀ n, some number = some n → n < f.payloads.length := by
      intro n heq
      cases heq
      exact hnumber
    exact hfirst.trans hf hown hrest

theorem map_recipients (hf : f.Kept level) (type : String) :
    (f.bus.recipients type).map (·.callee) = f.history.due type := by
  simp only [Bus.recipients, Bus.under, List.map_append, hf.subscriptions, History.due, standing]

/-- **A publication is whole**: it is begun as the history demands, and goes on to all for whom it is. -/
theorem publishWith {nested : Publisher σ} (behave : Behaviour σ)
    (hnested : ∀ f kind properties, f.Kept (level + 1) →
      Proceeds depth (level + 1) none [] f (nested f kind properties).1)
    (hf : f.Kept level) (hlevel : level ≠ depth) (kind : EventKind) (properties : Properties) :
    Proceeds depth level none [] f (Floor.publishWith nested behave f kind properties).1 := by
  have hexpected : startOf depth f.history kind properties =
      if f.bus.closed then .dropped
      else match kind.accept properties with
        | .error e => .refused e
        | .ok ms => .begun f.payloads.length ⟨kind.type, ms⟩ := by
    rw [startOf, hf.underWay, if_neg hlevel, hf.closed, hf.payloads]
  unfold Floor.publishWith
  by_cases hclosed : f.bus.closed = true
  · rw [if_pos hclosed] at hexpected ⊢
    have hkept := hf.happened (e := .publishing kind properties .dropped) rfl (Bool.or_false _).symm rfl rfl
    exact .single hkept rfl ⟨hexpected.symm, fun _ _ h => by cases h⟩
  · rw [if_neg hclosed] at hexpected ⊢
    cases haccept : kind.accept properties with
    | error e =>
      rw [haccept] at hexpected
      have hkept := hf.happened (e := .publishing kind properties (.refused e)) rfl
        (Bool.or_false _).symm rfl rfl
      exact .single hkept rfl ⟨hexpected.symm, fun _ _ h => by cases h⟩
    | ok ms =>
      rw [haccept] at hexpected
      dsimp only at hexpected ⊢
      let p : Payload := ⟨kind.type, ms⟩
      let number := f.payloads.length
      let e : Event := .publishing kind properties (.begun number p)
      let begun : Floor σ := { f with payloads := f.payloads ++ [p] }.happened [e]
      have hbegun : begun.Kept (level + 1) := hf.happened (e := e) rfl (by simp [isClosed, e]) rfl rfl
      have hnumber : number < begun.payloads.length := by simp [begun, number]
      obtain ⟨hkept, m, hm, hwhole, hcalls⟩ :=
        hbegun.callAll behave kind.type hnested (f.bus.recipients kind.type) hnumber
      let told := (f.bus.recipients kind.type).foldl (Floor.call nested behave kind.type number) begun
      have hdelivered : (told.happened [.delivered number]).Kept level :=
        hkept.happened (e := .delivered number) rfl (Bool.or_false _).symm rfl rfl
      refine ⟨hdelivered, e :: (m ++ [.delivered number]), ?_, ?_, fun _ h => by cases h⟩
      · show told.history ++ [.delivered number] = _
        rw [hm]
        simp [begun]
      · apply whole_delivered hexpected.symm hwhole
        rw [hcalls number rfl, hf.map_recipients]

/-- Publishing is whole, to any depth. -/
theorem publishTo (behave : Behaviour σ) (left : Nat) (hf : f.Kept level) (hdepth : level + left = depth)
    (kind : EventKind) (properties : Properties) :
    Proceeds depth level none [] f (Floor.publishTo behave left f kind properties).1 := by
  induction left generalizing level f kind properties with
  | zero =>
    have hexpected : startOf depth f.history kind properties = .tooDeep := by
      rw [startOf, hf.underWay, if_pos (by omega)]
    have hkept := hf.happened (e := .publishing kind properties .tooDeep) rfl (Bool.or_false _).symm rfl rfl
    exact .single hkept rfl ⟨hexpected.symm, fun _ _ h => by cases h⟩
  | succ left ih =>
    apply hf.publishWith behave
    · intro f kind properties hf
      exact ih hf (by omega) kind properties
    · omega

end Kept

/-! ## The headline -/

/-- Each payload is that of a publication that was begun, if these are numbered in their order. -/
theorem exists_begun_of_numbered {h : History}
    (hnumbered : ∀ (b : History) kind properties n p a, h = b ++ .publishing kind properties (.begun n p) :: a →
      n = b.payloads.length)
    (hnumber : number < (History.payloads h).length) :
    ∃ earlier kind properties p later,
      h = earlier ++ .publishing kind properties (.begun number p) :: later := by
  induction h using List.reverseRecOn with
  | nil => cases hnumber
  | append_singleton h e ih =>
    by_cases hold : number < (History.payloads h).length
    · have hbefore : ∀ (b : History) kind properties n p a,
          h = b ++ .publishing kind properties (.begun n p) :: a → n = b.payloads.length := by
        intro b kind properties n p a heq
        apply hnumbered b kind properties n p (a ++ [e])
        rw [heq, List.append_assoc, List.cons_append]
      obtain ⟨earlier, kind, properties, p, later, rfl⟩ := ih hbefore hold
      exact ⟨earlier, kind, properties, p, later ++ [e], by simp⟩
    · -- only a publication that is begun adds a payload
      rw [payloads_concat] at hnumber
      cases e with
      | publishing kind properties start =>
        cases start with
        | begun n p =>
          have hn := hnumbered h kind properties n p [] rfl
          simp only [restated, List.length_append, List.length_singleton] at hnumber
          have heq : number = n := by omega
          exact ⟨h, kind, properties, p, [], by rw [heq]⟩
        | _ => exact absurd hnumber hold
      | amended n p =>
        simp only [restated, List.length_set] at hnumber
        exact absurd hnumber hold
      | _ => exact absurd hnumber hold

/-- Each payload is that of a publication that was begun. -/
theorem exists_begun {h : History}
    (hstarts : ∀ b kind properties start a, h = b ++ .publishing kind properties start :: a →
      start = startOf depth b kind properties)
    (hnumber : number < (History.payloads h).length) :
    ∃ earlier kind properties p later,
      h = earlier ++ .publishing kind properties (.begun number p) :: later :=
  exists_begun_of_numbered
    (fun b kind properties n p a heq => (startOf_eq_begun (hstarts b kind properties (.begun n p) a heq)).1) hnumber

/-- What a payload says while nobody changes it. -/
theorem payload_kept {h m : History} {p : Payload} (hp : (History.payloads h)[number]? = some p)
    (hm : ∀ q, .amended number q ∉ m) : (History.payloads (h ++ m))[number]? = some p := by
  induction m using List.reverseRecOn with
  | nil => simpa using hp
  | append_singleton m e ih =>
    have hsame := ih fun q hq => hm q (List.mem_append_left _ hq)
    rw [← List.append_assoc, payloads_concat]
    cases e with
    | publishing kind properties start =>
      cases start with
      | begun n q =>
        obtain ⟨hlt, -⟩ := List.getElem?_eq_some_iff.mp hsame
        rw [← hsame]
        exact List.getElem?_append_left hlt
      | _ => exact hsame
    | amended n q =>
      have hne : n ≠ number := by
        rintro rfl
        exact hm q (List.mem_append_right _ List.mem_cons_self)
      rw [← hsame]
      exact List.getElem?_set_ne hne
    | _ => exact hsame

/-- **Whoever is subscribed when an event is published is told of it.** Whatever program uses a bus, whatever
callbacks do, and however deep they publish in turn, its history shows the following. Each wish to publish
comes to what the history before it demands: a closed bus drops it, properties that do not fit are refused,
and otherwise a publication begins, unless too many already wait for each other. Until a publication is
delivered it calls exactly those who were subscribed when it began, in order and as often as they were,
whether or not a callback fails; those subscribed to its type come first. Each call hands over the payload of
the publication, which is the same for all unless someone changes it. Nobody is called but for a publication
that has begun. -/
theorem published_to_all_standing (behave : Behaviour σ) (depth : Nat) (shared : σ) (program : Program σ) :
    let history := (run (publishTo behave depth) program (new shared)).1.history
    (∀ before kind properties start after, history = before ++ .publishing kind properties start :: after →
      start = startOf depth before kind properties ∧
      ∀ number p, start = .begun number p → ∃ during later,
        after = during ++ .delivered number :: later ∧
        calls before number = [] ∧ calls later number = [] ∧
        calls during number = standing before kind.type ++ standing before allEvents ∧
        (kind.type ≠ allEvents → ∀ callee, (calls during number).count callee =
          (History.subscriptions before).countP fun s =>
            (s.key == kind.type || s.key == allEvents) && s.callee == callee) ∧
        ((∀ q, .amended number q ∉ during) →
          ∀ callee q, .called number callee q ∈ during → q = p)) ∧
    ∀ before number callee p after, history = before ++ .called number callee p :: after →
      (History.payloads before)[number]? = some p ∧
      ∃ earlier kind properties q later,
        before = earlier ++ .publishing kind properties (.begun number q) :: later := by
  intro history
  have hpublish : ∀ f kind properties, Kept 0 f →
      Proceeds depth 0 none [] f (publishTo behave depth f kind properties).1 := by
    intro f kind properties hf
    exact hf.publishTo behave depth (Nat.zero_add depth) kind properties
  obtain ⟨-, m, hm, hwhole, -⟩ := (kept_new shared).run hpublish program
  have hhistory : history = m := hm.trans (List.nil_append m)
  rw [← hhistory] at hwhole
  have hstarts : ∀ before kind properties start after,
      history = before ++ .publishing kind properties start :: after →
      start = startOf depth before kind properties := by
    intro before kind properties start after heq
    exact (hwhole before _ after heq).1
  have hcalled : ∀ before number callee p after, history = before ++ .called number callee p :: after →
      (History.payloads before)[number]? = some p := by
    intro before number callee p after heq
    exact (hwhole before _ after heq).1
  refine ⟨?_, ?_⟩
  · intro before kind properties start after heq
    refine ⟨hstarts before kind properties start after heq, fun number p hstart => ?_⟩
    obtain ⟨during, later, rfl, hduring, hlater⟩ := (hwhole before _ after heq).2 number p hstart
    obtain ⟨hnumber, -⟩ := startOf_eq_begun (hstart ▸ hstarts before kind properties start _ heq)
    refine ⟨during, later, rfl, ?_, hlater, hduring, ?_, ?_⟩
    · -- a call before would have had a payload
      apply List.filterMap_eq_nil_iff.mpr
      intro e he
      obtain ⟨b, a, rfl⟩ := List.append_of_mem he
      cases e with
      | called n callee q =>
        have hq := hcalled b n callee q _ (by rw [heq, List.append_assoc, List.cons_append])
        obtain ⟨hlt, -⟩ := List.getElem?_eq_some_iff.mp hq
        have hle := History.length_payloads_le b (.called n callee q :: a)
        refine if_neg ?_
        omega
      | _ => rfl
    · intro htype callee
      rw [hduring]
      exact count_due before htype callee
    · intro hunamended callee q hq
      obtain ⟨b, a, rfl⟩ := List.append_of_mem hq
      have hbegun : (History.payloads (before ++ [.publishing kind properties start]))[number]? = some p := by
        rw [payloads_concat, hstart, hnumber]
        exact List.getElem?_concat_length
      have hkept := payload_kept (m := b) hbegun fun q hq =>
        hunamended q (List.mem_append_left _ hq)
      have hnow := hcalled (before ++ .publishing kind properties start :: b) number callee q
        (a ++ .delivered number :: later) (by simp [heq])
      rw [List.append_assoc, List.singleton_append, hnow] at hkept
      exact Option.some.inj hkept
  · intro before number callee p after heq
    have hp := hcalled before number callee p after heq
    obtain ⟨hlt, -⟩ := List.getElem?_eq_some_iff.mp hp
    have hbefore : ∀ b kind properties start a, before = b ++ .publishing kind properties start :: a →
        start = startOf depth b kind properties := by
      intro b kind properties start a hb
      apply hstarts b kind properties start (a ++ .called number callee p :: after)
      rw [heq, hb, List.append_assoc, List.cons_append]
    exact ⟨hp, exists_begun hbefore hlt⟩

/-- The first of three callbacks closes the bus and fails. The others are called all the same, and nobody is
called for the event that is published next. -/
theorem closing_and_failing_spare_others :
    let saved : EventKind := ⟨"saved", "Saved", fun ms => .valid ms⟩
    let given : Properties := .record "Saved" []
    let behave : Behaviour Unit := fun id _ => if id = 0 then .close (.fail "broken") else .done
    let program : Program Unit := .subscribe .event "saved" 0 fun _ => .subscribe .all "" 2 fun _ =>
      .subscribe .once "saved" 1 fun _ => .publish saved given fun _ => .publish saved given fun _ => .done
    let history := (run (publishTo behave 1) program (new ())).1.history
    .publishing saved given .dropped ∈ history ∧
    ∃ before during later, history = before ++ .publishing saved given (.begun 0 ⟨"saved", []⟩) ::
        (during ++ .delivered 0 :: later) ∧
      calls during 0 = [.listener 0, .once 0 1, .listener 2] ∧ calls later 0 = [] ∧
      ∀ callee q, .called 0 callee q ∈ during → q = ⟨"saved", []⟩ := by
  intro saved given behave program history
  let before : History := [.subscribed ⟨"saved", .listener 0⟩, .subscribed ⟨"*", .listener 2⟩,
    .subscribed ⟨"saved", .once 0 1⟩]
  let p : Payload := ⟨"saved", []⟩
  let after : History := [.called 0 (.listener 0) p, .closed, .called 0 (.once 0 1) p,
    .unsubscribed ⟨"saved", .once 0 1⟩, .called 0 (.listener 2) p, .delivered 0,
    .publishing saved given .dropped]
  have hhistory : history = before ++ .publishing saved given (.begun 0 p) :: after := by rfl
  obtain ⟨-, hbegun⟩ :=
    (published_to_all_standing behave 1 () program).1 before saved given (.begun 0 p) after hhistory
  obtain ⟨during, later, hafter, -, hlater, hduring, -, hsame⟩ := hbegun 0 p rfl
  have hunamended : ∀ q, Event.amended 0 q ∉ during := by
    intro q hq
    have hin : Event.amended 0 q ∈ after := by simp [hafter, hq]
    simp [after] at hin
  refine ⟨by simp [hhistory, after], before, during, later, by rw [hhistory, hafter], ?_, hlater,
    hsame hunamended⟩
  rw [hduring]
  decide +kernel

end Floor

end EditorServices.Bus
