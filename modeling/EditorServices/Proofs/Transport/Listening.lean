import EditorServices.Proofs.Transport.Framing
import EditorServices.Transport.Channel

/-!
# `Proofs.Transport.Listening` — what is written to one channel is heard at another

The bytes of messages written in order are a stream of frames. Listening to it is an induction over the
frames: each is taken off whole, read as its message and handed to the consumer. What comes of a frame that
breaks off at the end of the stream depends on the byte after which it does.

## Contents
- **Writing.** `writeAll` and `sentBytes`; `sentBytes_writeAll`.
- **Hearing.** `Consumer.Attends`, `delivered`, and what one message leads to.
- **Frames.** `listenFor_frames`, by induction over the messages.
- **The end of the stream.** What comes after the last whole frame.
- **Round trip.** `written_messages_are_heard`.
- **Broken streams.** `broken_frame_heard`: the frame that breaks off is never delivered, but the one before
  it may be delivered twice.
-/

namespace EditorServices

namespace Channel

open EditorServices.Frame (frameBytes bodyBytes labelBytes bodyText Limits)

/-! ## Writing -/

/-- Writes messages in order, up to the first failure. -/
def writeAll (c : Channel) : List Json → Stepped Unit
  | [] => ok c []
  | m :: ms =>
    match c.write m with
    | ⟨c, effects, .error f⟩ => ⟨c, effects, .error f⟩
    | ⟨c, effects, .ok ()⟩ =>
      let rest := writeAll c ms
      { rest with effects := effects ++ rest.effects }

/-- The bytes that go out on the writing stream. -/
def sentBytes (effects : List Effect) : Bytes :=
  effects.flatMap fun
    | .sent frame => utf8Encode frame
    | _ => []

/-- A channel that was started and not closed. -/
structure IsOpen (c : Channel) : Prop where
  started : c.started = true
  unclosed : c.closed = false
  reader : c.readerOpen = true
  writer : c.writerOpen = true

/-- Starting opens. -/
theorem isOpen_start {peer : Peer} {surroundings : Surroundings} {inbound : Bytes} {limits : Limits}
    (h : (new peer surroundings inbound limits).start.result = .ok ()) :
    (new peer surroundings inbound limits).start.channel.IsOpen := by
  unfold start at h ⊢
  have hclosed : (new peer surroundings inbound limits).closed = false := rfl
  have hstarted : (new peer surroundings inbound limits).started = false := rfl
  rw [hclosed, hstarted] at h ⊢
  cases hopening : (new peer surroundings inbound limits).opening with
  | mk effects result =>
    rw [hopening] at h
    cases result with
    | error f => cases h
    | ok u => exact ⟨rfl, rfl, rfl, rfl⟩

variable {c c₁ c₂ : Channel} {m : Json} {ms : List Json} {q : Bytes} {consumer : Consumer} {count fuel : Nat}
  {previous : Option Bytes}

theorem IsOpen.write (h : c.IsOpen) (m : Json) : c.write m = ok c [.sent (Frame.ofMessage m)] := by
  unfold Channel.write
  rw [h.unclosed, h.started, h.writer]
  rfl

/-- On an open channel everything is written. -/
theorem IsOpen.writeAll (h : c.IsOpen) (ms : List Json) :
    c.writeAll ms = ok c (ms.map fun m => .sent (Frame.ofMessage m)) := by
  induction ms with
  | nil => rfl
  | cons m ms ih =>
    rw [Channel.writeAll, h.write m]
    dsimp only [ok]
    rw [ih]
    rfl

/-- Written messages are frames one after the other. -/
theorem sentBytes_writeAll (h : c.IsOpen) (hascii : ∀ m ∈ ms, IsAscii (bodyText m)) :
    sentBytes (c.writeAll ms).effects = ms.flatMap frameBytes := by
  rw [h.writeAll]
  show sentBytes (ms.map fun m => .sent (Frame.ofMessage m)) = _
  induction ms with
  | nil => rfl
  | cons m ms ih =>
    have hmore := ih fun m' hm' => hascii m' (List.mem_cons_of_mem m hm')
    have hfirst := Frame.utf8Encode_ofMessage (hascii m List.mem_cons_self)
    rw [List.flatMap_cons, ← hmore, ← hfirst]
    rfl

/-! ## Hearing -/

/-- A consumer who neither closes the channel nor fails. -/
structure Consumer.Attends (consumer : Consumer) : Prop where
  stays : ∀ n, consumer.closes n = false
  unfailing : ∀ n f, consumer.reaction n ≠ .fail f

theorem Consumer.accepting_attends : Consumer.accepting.Attends where
  stays := fun _ => rfl
  unfailing := by
    intro n f h
    cases h

/-- The messages with which the consumer was called. -/
def delivered (effects : List Effect) : List Json :=
  effects.filterMap fun
    | .message m => some m
    | _ => none

theorem delivered_append (a b : List Effect) : delivered (a ++ b) = delivered a ++ delivered b :=
  List.filterMap_append

/-- What comes of handing over the message of a number. -/
def Consumer.hearing (consumer : Consumer) (n : Nat) (m : Json) : List Effect :=
  match consumer.reaction n with
  | .refuse => [.message m, .refusedBody]
  | _ => [.message m]

/-- What comes of handing over messages after the first `count`. -/
def Consumer.hearings (consumer : Consumer) : Nat → List Json → List Effect
  | _, [] => []
  | count, m :: ms => consumer.hearing (count + 1) m ++ consumer.hearings (count + 1) ms

theorem delivered_hearing (consumer : Consumer) (n : Nat) (m : Json) :
    delivered (consumer.hearing n m) = [m] := by
  unfold Consumer.hearing
  split
  · rfl
  · rfl

theorem unreadableHead_not_mem_hearings (consumer : Consumer) (count : Nat) (ms : List Json) :
    .unreadableHead ∉ consumer.hearings count ms := by
  induction ms generalizing count with
  | nil => exact List.not_mem_nil
  | cons m ms ih =>
    rw [Consumer.hearings, List.mem_append]
    rintro (hfirst | hmore)
    · unfold Consumer.hearing at hfirst
      split at hfirst
      · simp at hfirst
      · simp at hfirst
    · exact ih (count + 1) hmore

theorem delivered_hearings (consumer : Consumer) (count : Nat) (ms : List Json) :
    delivered (consumer.hearings count ms) = ms := by
  induction ms generalizing count with
  | nil => rfl
  | cons m ms ih =>
    rw [Consumer.hearings, delivered_append, delivered_hearing, ih]
    rfl

/-- A body with a message is handed over. -/
theorem deliver_message (hc : consumer.Attends) {body : Bytes}
    (hbody : Frame.messageOf? c.limits body = some m) :
    deliver consumer c count body = (count + 1, ok c (consumer.hearing (count + 1) m)) := by
  unfold deliver Consumer.hearing
  rw [hbody]
  dsimp only
  rw [hc.stays]
  cases hreaction : consumer.reaction (count + 1) with
  | accept => rfl
  | refuse => rfl
  | fail f => exact absurd hreaction (hc.unfailing _ f)

/-- A body without one is not. -/
theorem deliver_nothing {body : Bytes} (hbody : Frame.messageOf? c.limits body = none) :
    deliver consumer c count body = (count, ok c [.refusedBody]) := by
  unfold deliver
  rw [hbody]

/-! ## Frames -/

/-- A step with something done before it. -/
def Stepped.after (effects : List Effect) (s : Stepped Unit) : Stepped Unit :=
  { s with effects := effects ++ s.effects }

theorem Stepped.after_after (a b : List Effect) (s : Stepped Unit) : (s.after b).after a = s.after (a ++ b) := by
  unfold Stepped.after
  rw [List.append_assoc]

/-- Delivers a body and listens on, with something done before. -/
def hearOn (consumer : Consumer) (fuel : Nat) (c : Channel) (count : Nat) (body : Bytes) (before : List Effect) :
    Stepped Unit :=
  match deliver consumer c count body with
  | (_, ⟨c, effects, .error f⟩) => ⟨c, before ++ effects, .error f⟩
  | (n, ⟨c, effects, .ok ()⟩) => (listenFor consumer fuel c n (some body)).after (before ++ effects)

theorem hearOn_ok {body : Bytes} {n : Nat} {effects before : List Effect}
    (hdeliver : deliver consumer c count body = (n, ok c effects)) : hearOn consumer fuel c count body before =
      (listenFor consumer fuel c n (some body)).after (before ++ effects) := by
  unfold hearOn
  rw [hdeliver]
  rfl

/-- Listening to a stream that is open. -/
theorem listenFor_succ (hopen : c.readerOpen = true) : listenFor consumer (fuel + 1) c count previous =
    match Frame.takeBody c.limits c.inbound, previous with
    | .ended, _ => ok { c with inbound := [] } []
    | .body body rest, _ => hearOn consumer fuel { c with inbound := rest } count body []
    | .tooLong rest, _ => ⟨{ c with inbound := rest }, [], .error .overflow⟩
    | .noRoom rest, _ => ⟨{ c with inbound := rest }, [], .error .noRoom⟩
    | .unreadable rest, some body => hearOn consumer fuel { c with inbound := rest } count body [.unreadableHead]
    | .unreadable rest, none => ⟨{ c with inbound := rest }, [.unreadableHead], .error .noBody⟩ := by
  have hreader : ¬(!c.readerOpen) = true := by
    rw [hopen]
    exact Bool.false_ne_true
  rw [listenFor, if_neg hreader]
  cases Frame.takeBody c.limits c.inbound with
  | unreadable rest => cases previous <;> rfl
  | _ => rfl

theorem listenFor_body {body rest : Bytes} {n : Nat} {effects : List Effect} (hopen : c.readerOpen = true)
    (htake : Frame.takeBody c.limits c.inbound = .body body rest)
    (hdeliver : deliver consumer { c with inbound := rest } count body =
      (n, ok { c with inbound := rest } effects)) :
    listenFor consumer (fuel + 1) c count previous =
      (listenFor consumer fuel { c with inbound := rest } n (some body)).after effects := by
  rw [listenFor_succ hopen, htake]
  exact hearOn_ok hdeliver

theorem listenFor_ended (hopen : c.readerOpen = true)
    (htake : Frame.takeBody c.limits c.inbound = .ended) :
    listenFor consumer (fuel + 1) c count previous = ok { c with inbound := [] } [] := by
  rw [listenFor_succ hopen, htake]

/-- The body that was found last: that of the last message, if there is one. -/
def lastBody (previous : Option Bytes) (ms : List Json) : Option Bytes :=
  (ms.getLast?.map bodyBytes).or previous

theorem lastBody_cons (m : Json) : lastBody (some (bodyBytes m)) ms = lastBody previous (m :: ms) := by
  unfold lastBody
  cases ms with
  | nil => rfl
  | cons m' ms =>
    rw [List.getLast?_cons_cons]
    cases h : (m' :: ms).getLast? with
    | none => exact absurd (List.getLast?_eq_none_iff.mp h) (List.cons_ne_nil _ _)
    | some last => rfl

/-- **Frames are heard one after the other**, whatever follows them. -/
theorem listenFor_frames (hc : consumer.Attends) (hopen : c.readerOpen = true)
    (hfits : ∀ m ∈ ms, c.limits.Fits m) (hin : c.inbound = ms.flatMap frameBytes ++ q) :
    listenFor consumer (ms.length + fuel) c count previous =
      (listenFor consumer fuel { c with inbound := q } (count + ms.length) (lastBody previous ms)).after
        (consumer.hearings count ms) := by
  induction ms generalizing c count previous with
  | nil =>
    have hsame : { c with inbound := q } = c := by
      rw [List.flatMap_nil, List.nil_append] at hin
      rw [← hin]
    rw [hsame, List.length_nil, Nat.zero_add]
    rfl
  | cons m ms ih =>
    have hm : c.limits.Fits m := hfits m List.mem_cons_self
    have htake : Frame.takeBody c.limits c.inbound = .body (bodyBytes m) (ms.flatMap frameBytes ++ q) := by
      rw [hin, List.flatMap_cons, List.append_assoc]
      exact Frame.takeBody_frame hm _
    have hdeliver : deliver consumer { c with inbound := ms.flatMap frameBytes ++ q } count (bodyBytes m) = _ :=
      deliver_message hc (Frame.messageOf?_bodyBytes hm)
    have hmore : listenFor consumer (ms.length + fuel) { c with inbound := ms.flatMap frameBytes ++ q }
        (count + 1) (some (bodyBytes m)) = _ :=
      ih hopen (fun m' hm' => hfits m' (List.mem_cons_of_mem m hm')) rfl
    have hfuel : (m :: ms).length + fuel = ms.length + fuel + 1 := by
      rw [List.length_cons]
      omega
    have hcount : count + (m :: ms).length = count + 1 + ms.length := by
      rw [List.length_cons]
      omega
    rw [hfuel, listenFor_body hopen htake hdeliver, hmore, Stepped.after_after, lastBody_cons, hcount]
    rfl

/-! ## The end of the stream -/

theorem takeBody_nil (limits : Limits) : Frame.takeBody limits [] = .ended := by
  have hunstated : Frame.lengthOf limits [] = .unstated := Frame.lengthOf_unstated (by decide)
  unfold Frame.takeBody
  rw [Frame.takeLine]
  dsimp only
  rw [hunstated, Frame.afterBlankLine_nil]

/-- Listening to the end of a stream. -/
theorem listenFor_nil (hopen : c.readerOpen = true) (hin : c.inbound = []) :
    listenFor consumer (fuel + 1) c count previous = ok c [] := by
  have htake : Frame.takeBody c.limits c.inbound = .ended := by
    rw [hin]
    exact takeBody_nil c.limits
  rw [listenFor_ended hopen htake, ← hin]

/-- A part of a body is refused. -/
theorem listenFor_part {part : Bytes} (hopen : c.readerOpen = true)
    (htake : Frame.takeBody c.limits c.inbound = .body part [])
    (hpart : Frame.messageOf? c.limits part = none) :
    listenFor consumer (fuel + 2) c count previous = ok { c with inbound := [] } [.refusedBody] := by
  have hdeliver : deliver consumer { c with inbound := [] } count part = _ := deliver_nothing hpart
  have hmore : listenFor consumer (fuel + 1) { c with inbound := [] } count (some part) = _ :=
    listenFor_nil hopen rfl
  rw [listenFor_body hopen htake hdeliver, hmore]
  rfl

/-- After a head that cannot be used, the body before it is found again. -/
theorem listenFor_unreadable (hc : consumer.Attends) (hopen : c.readerOpen = true)
    (htake : Frame.takeBody c.limits c.inbound = .unreadable []) (hm : c.limits.Fits m) :
    listenFor consumer (fuel + 2) c count (some (bodyBytes m)) =
      ok { c with inbound := [] } (.unreadableHead :: consumer.hearing (count + 1) m) := by
  have hdeliver : deliver consumer { c with inbound := [] } count (bodyBytes m) = _ :=
    deliver_message hc (Frame.messageOf?_bodyBytes hm)
  have hmore : listenFor consumer (fuel + 1) { c with inbound := [] } (count + 1) (some (bodyBytes m)) = _ :=
    listenFor_nil hopen rfl
  rw [listenFor_succ hopen, htake]
  dsimp only
  rw [hearOn_ok hdeliver, hmore]
  dsimp only [Stepped.after, ok]
  rw [List.append_nil, List.singleton_append]

/-- Before any body there is none to find again. -/
theorem listenFor_unreadable_first (hopen : c.readerOpen = true)
    (htake : Frame.takeBody c.limits c.inbound = .unreadable []) :
    listenFor consumer (fuel + 1) c count none = ⟨{ c with inbound := [] }, [.unreadableHead], .error .noBody⟩ := by
  rw [listenFor_succ hopen, htake]

theorem length_frames_le (ms : List Json) (q : Bytes) :
    ms.length + q.length ≤ (ms.flatMap frameBytes ++ q).length := by
  rw [List.length_append]
  refine Nat.add_le_add_right ?_ _
  induction ms with
  | nil => exact Nat.le_refl _
  | cons m ms ih =>
    have hpos : 1 ≤ (frameBytes m).length := by
      unfold frameBytes
      rw [List.length_append, List.length_cons]
      omega
    rw [List.flatMap_cons, List.length_append, List.length_cons]
    omega

/-- Listening to frames and to what follows them. -/
theorem listen_frames (hc : consumer.Attends) (hopen : c.IsOpen) (hfits : ∀ m ∈ ms, c.limits.Fits m)
    (hin : c.inbound = ms.flatMap frameBytes ++ q) : ∃ fuel, q.length ≤ fuel ∧ c.listen consumer =
      (listenFor consumer (fuel + 1) { c with inbound := q } ms.length (lastBody none ms)).after
        (consumer.hearings 0 ms) := by
  have hlength : ms.length + q.length ≤ c.inbound.length := by
    rw [hin]
    exact length_frames_le ms q
  refine ⟨c.inbound.length - ms.length, by omega, ?_⟩
  have hstarted : ¬(!c.started) = true := by
    rw [hopen.started]
    exact Bool.false_ne_true
  have hfuel : c.inbound.length + 1 = ms.length + (c.inbound.length - ms.length + 1) := by omega
  rw [listen, if_neg hstarted, hfuel, listenFor_frames hc hopen.reader hfits hin, Nat.zero_add]

/-! ## Round trip -/

/-- What is within the limits, for a reader that may have none. -/
theorem fits_of_taken {limits : Limits} (htaken : ∀ m ∈ ms, m.Taken none none)
    (hfits : limits ≠ .unlimited → ∀ m ∈ ms, limits.Fits m) : ∀ m ∈ ms, limits.Fits m := by
  intro m hm
  by_cases hlimits : limits = .unlimited
  · rw [hlimits]
    exact Limits.fits_unlimited (htaken m hm)
  · exact hfits hlimits m hm

/-- **What is written to one channel is heard at another.** Messages are delivered as they were written, in
the same order, each once and nothing else, and listening ends with the stream. If the reader has limits,
the messages must be within them. -/
theorem written_messages_are_heard {c₁ c₂ : Channel} {consumer : Consumer} {ms : List Json} (h₁ : c₁.IsOpen)
    (h₂ : c₂.IsOpen) (hc : consumer.Attends) (hms : ∀ m ∈ ms, m.Taken none none)
    (hlimits : c₂.limits ≠ .unlimited → ∀ m ∈ ms, c₂.limits.Fits m)
    (hin : c₂.inbound = sentBytes (c₁.writeAll ms).effects) :
    (c₁.writeAll ms).result = .ok () ∧ (c₂.listen consumer).result = .ok () ∧
      delivered (c₂.listen consumer).effects = ms ∧ .unreadableHead ∉ (c₂.listen consumer).effects ∧
      (c₂.listen consumer).channel = { c₂ with inbound := [] } := by
  have hwritten : (c₁.writeAll ms).result = .ok () := by
    rw [h₁.writeAll]
    rfl
  rw [sentBytes_writeAll h₁ fun m hm => (hms m hm).ascii 0] at hin
  obtain ⟨fuel, -, hlisten⟩ := listen_frames hc h₂ (fits_of_taken hms hlimits)
    (hin.trans (List.append_nil _).symm)
  have hend : listenFor consumer (fuel + 1) { c₂ with inbound := [] } ms.length (lastBody none ms) = _ :=
    listenFor_nil h₂.reader rfl
  rw [hend] at hlisten
  have heffects : (c₂.listen consumer).effects = consumer.hearings 0 ms := by
    rw [hlisten]
    exact List.append_nil _
  refine ⟨hwritten, ?_, ?_, ?_, ?_⟩
  · rw [hlisten]
    rfl
  · rw [heffects]
    exact delivered_hearings consumer 0 ms
  · rw [heffects]
    exact unreadableHead_not_mem_hearings consumer 0 ms
  · rw [hlisten]
    rfl

/-- Messages in which the wire's own marks occur: line ends, the label of a length, quotes and slashes,
control characters, a character beyond the basic plane, and a large integer. -/
def markedMessages : List Json :=
  [.obj [("Content-Length: 3", .str "\r\n\r\nContent-Length: 3\r\n\r\n\"/\\\u0000😀"),
      ("id", .int (-123456789012345678901234567890))],
    .obj [("", .arr [.null, .bool true, .obj []])]]

theorem taken_markedMessages : ∀ m ∈ markedMessages, m.Taken (some maxIntegerDigits) (some 1024) := by
  have hmarks : Json.Taken (some maxIntegerDigits) (some 1024) (markedMessages.get ⟨0, by decide⟩) := by
    refine .obj (by decide) (by decide) fun p hp => ?_
    rcases List.mem_cons.mp hp with rfl | hp
    · exact .str _
    · obtain rfl := List.mem_singleton.mp hp
      exact .int (by decide)
  have hnested : Json.Taken (some maxIntegerDigits) (some 1024) (markedMessages.get ⟨1, by decide⟩) := by
    refine .obj (by decide) (by decide) fun p hp => ?_
    obtain rfl := List.mem_singleton.mp hp
    refine .arr (by decide) fun x hx => ?_
    simp only [List.mem_cons, List.not_mem_nil, or_false] at hx
    rcases hx with rfl | rfl | rfl
    · exact .null
    · exact .bool true
    · exact .obj (by decide) (by decide) fun p hp => by cases hp
  intro m hm
  rcases List.mem_cons.mp hm with rfl | hm
  · exact hmarks
  · rw [List.mem_singleton.mp hm]
    exact hnested

/-- A channel of streams that was started, with something to read. -/
def startedChannel (inbound : Bytes) : Channel :=
  (new .streams ⟨⟨"linux", none⟩, [], none, none, false, false, false, 0⟩ inbound).start.channel

theorem isOpen_startedChannel (inbound : Bytes) : (startedChannel inbound).IsOpen := isOpen_start rfl

/-- Marks of the wire in messages do not break the framing. -/
theorem marked_messages_are_heard :
    let c := startedChannel (sentBytes ((startedChannel []).writeAll markedMessages).effects)
    (c.listen .accepting).result = .ok () ∧ delivered (c.listen .accepting).effects = markedMessages := by
  have hlength : ∀ m ∈ markedMessages, (bodyText m).length < 34359738368 := by decide +kernel
  obtain ⟨-, hresult, hdelivered, -, -⟩ := written_messages_are_heard (isOpen_startedChannel [])
    (isOpen_startedChannel (sentBytes ((startedChannel []).writeAll markedMessages).effects))
    Consumer.accepting_attends (fun m hm => (taken_markedMessages m hm).unlimited)
    (fun _ m hm => Limits.fits_usual (taken_markedMessages m hm) (hlength m hm)) rfl
  exact ⟨hresult, hdelivered⟩

/-! ## Broken streams -/

theorem delivered_after (effects : List Effect) (s : Stepped Unit) :
    delivered (s.after effects).effects = delivered effects ++ delivered s.effects :=
  delivered_append _ _

theorem bodyText_obj_ne_nil (members : List (String × Json)) : bodyText (.obj members) ≠ [] := by
  cases members with
  | nil => exact List.cons_ne_nil _ _
  | cons p ms => exact List.cons_ne_nil _ _

section

variable (hc : consumer.Attends) (hopen : c.IsOpen) (hfits : ∀ m ∈ ms, c.limits.Fits m)

include hc hopen hfits

/-- A stream that ends before a body begins ends after the last whole frame. -/
theorem listen_ended (hin : c.inbound = ms.flatMap frameBytes ++ q)
    (htake : Frame.takeBody c.limits q = .ended) :
    (c.listen consumer).result = .ok () ∧ delivered (c.listen consumer).effects = ms := by
  obtain ⟨fuel, -, hlisten⟩ := listen_frames hc hopen hfits hin
  have hend : listenFor consumer (fuel + 1) { c with inbound := q } ms.length (lastBody none ms) = _ :=
    listenFor_ended hopen.reader htake
  rw [hlisten, delivered_after, delivered_hearings, hend]
  exact ⟨rfl, List.append_nil _⟩

/-- So does one that ends in a body. -/
theorem listen_part {part : Bytes} (hin : c.inbound = ms.flatMap frameBytes ++ q)
    (htake : Frame.takeBody c.limits q = .body part []) (hpart : Frame.messageOf? c.limits part = none) :
    (c.listen consumer).result = .ok () ∧ delivered (c.listen consumer).effects = ms := by
  obtain ⟨fuel, hfuel, hlisten⟩ := listen_frames hc hopen hfits hin
  have hsome : q ≠ [] := by
    intro heq
    rw [heq, takeBody_nil c.limits] at htake
    cases htake
  have hpos := List.length_pos_iff.mpr hsome
  obtain ⟨f, rfl⟩ : ∃ f, fuel = f + 1 := ⟨fuel - 1, by omega⟩
  have hrefused : listenFor consumer (f + 2) { c with inbound := q } ms.length (lastBody none ms) = _ :=
    listenFor_part hopen.reader htake hpart
  rw [hlisten, delivered_after, delivered_hearings, hrefused]
  exact ⟨rfl, List.append_nil _⟩

/-- **A label without a length brings the last frame back.** -/
theorem listen_label {last : Json} (hin : c.inbound = ms.flatMap frameBytes ++ labelBytes)
    (hlast : ms.getLast? = some last) :
    (c.listen consumer).result = .ok () ∧ delivered (c.listen consumer).effects = ms ++ [last] := by
  obtain ⟨fuel, hfuel, hlisten⟩ := listen_frames hc hopen hfits hin
  have hlength : labelBytes.length = 16 := rfl
  obtain ⟨f, rfl⟩ : ∃ f, fuel = f + 1 := ⟨fuel - 1, by omega⟩
  have hbody : lastBody none ms = some (bodyBytes last) := by
    unfold lastBody
    rw [hlast]
    rfl
  have hagain : listenFor consumer (f + 2) { c with inbound := labelBytes } ms.length (some (bodyBytes last)) = _ :=
    listenFor_unreadable hc hopen.reader (Frame.takeBody_labelBytes c.limits)
      (hfits last (List.mem_of_getLast? hlast))
  rw [hlisten, delivered_after, delivered_hearings, hbody, hagain]
  refine ⟨rfl, ?_⟩
  show ms ++ delivered (consumer.hearing (ms.length + 1) last) = ms ++ [last]
  rw [delivered_hearing]

end

/-- With no frame before it, a label without a length ends listening with a failure. -/
theorem listen_label_first (hopen : c.IsOpen) (hin : c.inbound = labelBytes) :
    (c.listen consumer).result = .error .noBody ∧ delivered (c.listen consumer).effects = [] := by
  have htake : Frame.takeBody c.limits c.inbound = .unreadable [] := by
    rw [hin]
    exact Frame.takeBody_labelBytes c.limits
  have hstarted : ¬(!c.started) = true := by
    rw [hopen.started]
    exact Bool.false_ne_true
  rw [listen, if_neg hstarted, listenFor_unreadable_first hopen.reader htake]
  exact ⟨rfl, rfl⟩

/-- **What is heard of a stream that breaks off in a frame.** All frames before it are delivered as they were
written, and nothing of the broken one; then listening ends. Only if the stream ends right after the label
it is otherwise: the last frame is delivered a second time, and if there is none, listening fails. -/
theorem broken_frame_heard {c₁ c₂ : Channel} {consumer : Consumer} {ms : List Json}
    {members : List (String × Json)} {cut : Bytes} (h₁ : c₁.IsOpen) (h₂ : c₂.IsOpen) (hc : consumer.Attends)
    (hms : ∀ m ∈ .obj members :: ms, m.Taken none none)
    (hlimits : c₂.limits ≠ .unlimited → ∀ m ∈ .obj members :: ms, c₂.limits.Fits m)
    (hcut : cut <+: sentBytes (c₁.write (.obj members)).effects)
    (hproper : cut ≠ sentBytes (c₁.write (.obj members)).effects)
    (hin : c₂.inbound = sentBytes (c₁.writeAll ms).effects ++ cut) :
    (cut ≠ utf8Encode Frame.lengthLabel.toList →
      (c₂.listen consumer).result = .ok () ∧ delivered (c₂.listen consumer).effects = ms) ∧
    (cut = utf8Encode Frame.lengthLabel.toList →
      (∀ last ∈ ms.getLast?, (c₂.listen consumer).result = .ok () ∧
        delivered (c₂.listen consumer).effects = ms ++ [last]) ∧
      (ms = [] → (c₂.listen consumer).result = .error .noBody ∧
        delivered (c₂.listen consumer).effects = [])) := by
  have hfits := fits_of_taken hms hlimits
  have hwhole : ∀ m ∈ ms, c₂.limits.Fits m := fun m hm => hfits m (List.mem_cons_of_mem _ hm)
  have hbroken : c₂.limits.Fits (.obj members) := hfits _ List.mem_cons_self
  have hframe : sentBytes (c₁.write (.obj members)).effects = frameBytes (.obj members) := by
    rw [h₁.write, ← Frame.utf8Encode_ofMessage (hbroken.taken.ascii 0)]
    exact List.append_nil _
  rw [hframe] at hcut hproper
  rw [sentBytes_writeAll h₁ fun m hm => (hms m (List.mem_cons_of_mem _ hm)).ascii 0] at hin
  rw [Frame.utf8Encode_lengthLabel]
  refine ⟨fun hlabel => ?_, fun hlabel => ⟨fun last hlast => ?_, fun hnone => ?_⟩⟩
  · rcases Frame.takeBody_cut hbroken (bodyText_obj_ne_nil members) hcut hproper hlabel with
      htake | ⟨part, hpart, htake⟩
    · exact listen_ended hc h₂ hwhole hin htake
    · exact listen_part hc h₂ hwhole hin htake (Frame.messageOf?_part hbroken hpart)
  · rw [hlabel] at hin
    exact listen_label hc h₂ hwhole hin hlast
  · rw [hlabel, hnone] at hin
    exact listen_label_first h₂ hin

/-- A small message. -/
def ping : Json := .obj [("id", .int 1)]

theorem fits_ping : Limits.usual.Fits ping := by
  refine Limits.fits_usual (.obj (by decide) (by decide) fun p hp => ?_) (by decide +kernel)
  obtain rfl := List.mem_singleton.mp hp
  exact .int (by decide)

/-- Of two frames of which the second lacks its last byte the first is heard. -/
theorem frame_before_short_body_heard :
    let frame := sentBytes ((startedChannel []).write ping).effects
    let c := startedChannel (sentBytes ((startedChannel []).writeAll [ping]).effects ++ frame.dropLast)
    (c.listen .accepting).result = .ok () ∧ delivered (c.listen .accepting).effects = [ping] := by
  intro frame c
  have hpings : ∀ m ∈ [ping, ping], Limits.usual.Fits m := by
    intro m hm
    simp only [List.mem_cons, List.not_mem_nil, or_false, or_self] at hm
    rw [hm]
    exact fits_ping
  have hlong : 17 < frame.length := by decide +kernel
  have hproper : frame.dropLast ≠ frame := by
    intro heq
    have hshort := congrArg List.length heq
    rw [List.length_dropLast] at hshort
    omega
  have hlabel : frame.dropLast ≠ utf8Encode Frame.lengthLabel.toList := by
    intro heq
    have hshort : frame.dropLast.length = 16 := congrArg List.length heq
    rw [List.length_dropLast] at hshort
    omega
  have hheard := broken_frame_heard (isOpen_startedChannel []) (isOpen_startedChannel _)
    Consumer.accepting_attends (fun m hm => (hpings m hm).taken.unlimited) (fun _ => hpings)
    (List.dropLast_prefix frame) hproper rfl
  exact hheard.1 hlabel

/-- A frame is heard twice if the next one breaks off right after its label, and with no frame before it
such a label makes listening fail. -/
theorem frame_before_bare_label_heard_twice :
    let frame := sentBytes ((startedChannel []).write ping).effects
    let cut := utf8Encode Frame.lengthLabel.toList
    let c := startedChannel (sentBytes ((startedChannel []).writeAll [ping]).effects ++ cut)
    cut <+: frame ∧ cut ≠ frame ∧
      ((c.listen .accepting).result = .ok () ∧ delivered (c.listen .accepting).effects = [ping, ping]) ∧
      ((startedChannel cut).listen .accepting).result = .error .noBody := by
  intro frame cut c
  have hin : c.inbound = [ping].flatMap frameBytes ++ labelBytes := by
    show sentBytes ((startedChannel []).writeAll [ping]).effects ++ utf8Encode Frame.lengthLabel.toList = _
    rw [sentBytes_writeAll (isOpen_startedChannel []), Frame.utf8Encode_lengthLabel]
    intro m hm
    rw [List.mem_singleton.mp hm]
    exact fits_ping.taken.ascii 0
  have hpings : ∀ m ∈ [ping], c.limits.Fits m := by
    intro m hm
    rw [List.mem_singleton.mp hm]
    exact fits_ping
  refine ⟨by decide +kernel, by decide +kernel, ?_, ?_⟩
  · exact listen_label Consumer.accepting_attends (isOpen_startedChannel _) hpings hin rfl
  · exact (listen_label_first (isOpen_startedChannel cut) Frame.utf8Encode_lengthLabel).1

end Channel

end EditorServices
