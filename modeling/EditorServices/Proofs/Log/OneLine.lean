import EditorServices.Log.State
import EditorServices.Proofs.Json.UnbrokenText

/-!
# `Proofs.Log.OneLine` — a log call writes one line

Whatever is logged, a line end in it is escaped before it gets into a line: texts with blanks stand between
quotes, and what is nested is printed by the printer of values. Only the message of the pretty format and the
names of tags are written as they are.

One thing keeps a call from making a line at all: an integer with more digits than can be written, wherever it
stands in what is logged.

## Contents
- **Lines.** `IsOneLine`, and `isOneLine_concat_iff`.
- **Values.** `unbroken_valueText`, for values of all shapes, and `unbroken_pairs`.
- **Payloads.** What tags leave of the leading members; `exists_line_iff`, when a payload has a line.
- **Times.** `unbroken_timeText`.
- **Formats.** One lemma for each of the three.
- **Calls.** `one_line_for_each_call`.
-/

namespace EditorServices

namespace Log

/-! ## Lines -/

/-- One line feed, at the end, and no carriage return. -/
def IsOneLine (line : List Char) : Prop :=
  line.count '\n' = 1 ∧ '\r' ∉ line ∧ line.getLast? = some '\n'

theorem isOneLine_concat_iff {body : List Char} : IsOneLine (body ++ ['\n']) ↔ Unbroken body := by
  unfold IsOneLine
  have hlast : (body ++ ['\n']).getLast? = some '\n' := List.getLast?_concat
  rw [List.count_append, List.count_singleton_self]
  constructor
  · rintro ⟨hfeeds, hreturns, -⟩ c hc
    refine ⟨?_, ?_⟩
    · rintro rfl
      have hnone : body.count '\n' = 0 := by omega
      exact List.count_eq_zero.mp hnone hc
    · rintro rfl
      exact hreturns (List.mem_append_left _ hc)
  · intro h
    refine ⟨?_, ?_, hlast⟩
    · rw [List.count_eq_zero.mpr fun hc => (h _ hc).1 rfl]
    · intro hc
      rcases List.mem_append.mp hc with hbody | hend
      · exact (h _ hbody).2 rfl
      · exact absurd hend (by decide)

/-! ## Values -/

/-- A text that needs no quotes has no blanks, and so no line ends. -/
theorem unbroken_of_needsQuotes {s : List Char} (h : needsQuotes s = false) : Unbroken s := by
  intro c hc
  have hblank : isBlank c = false := by
    unfold needsQuotes at h
    rw [Bool.or_eq_false_iff, Bool.or_eq_false_iff] at h
    exact Bool.eq_false_iff.mpr (List.any_eq_false.mp h.1.2 c hc)
  refine ⟨?_, ?_⟩
  · rintro rfl
    exact absurd hblank (by decide)
  · rintro rfl
    exact absurd hblank (by decide)

/-- A text is written between quotes, or has no line end. -/
theorem unbroken_quotedOrPlain (s : String) :
    Unbroken (if needsQuotes s.toList then PrintStyle.compact.quote s else s.toList) := by
  split
  · exact PrintStyle.compact.unbroken_quote s
  · next h => exact unbroken_of_needsQuotes (Bool.eq_false_iff.mpr h)

/-- **A value after its key has no line end in it.** -/
theorem unbroken_valueText (v : Json) : Unbroken (valueText v) := by
  cases v with
  | null => exact unbroken_quotedOrPlain Json.null.shown
  | bool b => cases b <;> decide
  | int n => exact unbroken_intDigits n
  | float x => exact x.unbroken_text (by decide) (by decide)
  | str s => exact unbroken_quotedOrPlain s
  | arr items => exact Json.unbroken_print PrintStyle.isFlat_compact _
  | obj members => exact Json.unbroken_print PrintStyle.isFlat_compact _

theorem unbroken_intercalate {parts : List (List Char)} (h : ∀ p ∈ parts, Unbroken p) :
    Unbroken (List.intercalate [' '] parts) := by
  induction parts with
  | nil => exact .nil
  | cons p parts ih =>
    have hp := h p List.mem_cons_self
    cases parts with
    | nil => rwa [List.intercalate_singleton]
    | cons q parts =>
      rw [List.intercalate_cons_cons]
      exact (hp.append (by decide)).append (ih fun r hr => h r (List.mem_cons_of_mem p hr))

/-- Tags have no line end in them if their names have none. -/
theorem unbroken_pairs {members : Members} (h : ∀ m ∈ members, m.1 ∉ leadingNames → Unbroken m.1.toList) :
    Unbroken (pairs members) := by
  refine unbroken_intercalate fun p hp => ?_
  obtain ⟨⟨k, v⟩, hm, rfl⟩ := List.mem_map.mp hp
  obtain ⟨hmem, htag⟩ := List.mem_filter.mp hm
  have hname : k ∉ leadingNames := by simpa using htag
  exact .append (h _ hmem hname) (.cons (by decide) (unbroken_valueText v))

/-! ## Payloads -/

/-- A tag whose name is on one line and not that of a leading member. -/
def IsTagName (name : String) : Prop := Unbroken name.toList ∧ name ∉ leadingNames

section

variable {time : String} {tags : Named Value}

/-- The names of a payload are the leading ones and those of the tags. -/
theorem unbroken_of_mem_payload {delta : Int} {level : Level} {message : Value}
    (htags : ∀ t ∈ tags, IsTagName t.1) {m : String × Json}
    (hm : m ∈ payload time delta level message tags) (hname : m.1 ∉ leadingNames) : Unbroken m.1.toList := by
  rcases mem_payload hm with hleading | ⟨t, ht, rfl⟩
  · have hall : ∀ p : String × Json, p ∈ ([("time", .str time), ("delta_ms", .int delta),
        ("level", .str level.lower), ("msg", message.plain)] : Members) → p.1 ∈ leadingNames := by
      simp [leadingNames]
    exact absurd (hall m hleading) hname
  · exact (htags t ht).1

/-- Tags of other names leave the leading members as they are. -/
theorem get?_payload (time : String) (delta : Int) (level : Level) (message : Value)
    (htags : ∀ t ∈ tags, IsTagName t.1) {name : String} (hname : name ∈ leadingNames) :
    (payload time delta level message tags).get? name =
      Named.get? [("time", .str time), ("delta_ms", .int delta), ("level", .str level.lower),
        ("msg", message.plain)] name := by
  refine Named.get?_overlay_of_not_mem _ fun p hp => ?_
  obtain ⟨t, ht, rfl⟩ := List.mem_map.mp (List.mem_filter.mp hp).1
  exact fun heq => (htags t ht).2 (heq ▸ hname)

theorem shownMember_payload (time : String) (delta : Int) (level : Level) (message : Value)
    (htags : ∀ t ∈ tags, IsTagName t.1) :
    shownMember (payload time delta level message tags) "time" = time.toList ∧
      shownMember (payload time delta level message tags) "delta_ms" = intDigits delta ∧
      shownMember (payload time delta level message tags) "level" = level.lower.toList := by
  unfold shownMember
  rw [get?_payload time delta level message htags (by decide),
    get?_payload time delta level message htags (by decide),
    get?_payload time delta level message htags (by decide)]
  exact ⟨rfl, String.toList_ofList, rfl⟩

theorem message_payload (time : String) (delta : Int) (level : Level) (message : Value)
    (htags : ∀ t ∈ tags, IsTagName t.1) :
    ((payload time delta level message tags).get? "msg").getD .null = message.plain := by
  rw [get?_payload time delta level message htags (by decide)]
  rfl

/-- The severity in a payload is that of the call. -/
theorem eq_of_mem_payload {delta : Int} {level : Level} {message : Value} (htags : ∀ t ∈ tags, IsTagName t.1)
    {m : String × Json} (hm : m ∈ payload time delta level message tags) (hname : m.1 = "level") :
    m = ("level", .str level.lower) := by
  rcases mem_payload hm with hleading | ⟨t, ht, rfl⟩
  · simp only [List.mem_cons, List.not_mem_nil, or_false] at hleading
    rcases hleading with rfl | rfl | rfl | rfl
    · exact absurd (show "time" = "level" from hname) (by decide)
    · exact absurd (show "delta_ms" = "level" from hname) (by decide)
    · rfl
    · exact absurd (show "msg" = "level" from hname) (by decide)
  · have hleading : t.1 ∈ leadingNames := hname ▸ (by decide)
    exact absurd hleading (htags t ht).2

/-- **A payload has a line exactly if no integer in it has too many digits.** The pretty format does not write the
severity of the payload, but that is a text. -/
theorem exists_line_iff {delta : Int} {level : Level} {message : Value} (format : Format)
    (htags : ∀ t ∈ tags, IsTagName t.1) :
    (∃ written, line format level (payload time delta level message tags) = .ok written) ↔
      ∀ m ∈ payload time delta level message tags, m.2.hasFewDigits = true := by
  have hwritten : (∀ m ∈ format.written (payload time delta level message tags), m.2.hasFewDigits = true) ↔
      ∀ m ∈ payload time delta level message tags, m.2.hasFewDigits = true := by
    cases format with
    | json | kv => exact Iff.rfl
    | pretty =>
      refine ⟨fun h m hm => ?_, fun h m hm => h m (mem_of_mem_written hm)⟩
      by_cases hname : m.1 = "level"
      · rw [eq_of_mem_payload htags hm hname]
        rfl
      · exact h m (List.mem_filter.mpr ⟨hm, decide_eq_true hname⟩)
  rw [← hwritten]
  constructor
  · rintro ⟨written, h⟩
    unfold line at h
    split at h
    · next hall => exact List.all_eq_true.mp hall
    · cases h
  · exact fun h => ⟨_, line_of_few h⟩

/-- A line that is made is the text of its format. -/
theorem eq_lineText_of_line {format : Format} {level : Level} {members : Members} {written : List Char}
    (h : line format level members = .ok written) : written = lineText format level members := by
  unfold line at h
  split at h
  · exact (Except.ok.inj h).symm
  · cases h

/-- A payload without a line has an integer that is too long. -/
theorem line_eq_error {format : Format} {level : Level} {members : Members} {f : Failure}
    (h : line format level members = .error f) : f = .value unwritableIntegerText := by
  unfold line at h
  split at h
  · cases h
  · exact (Except.error.inj h).symm

/-! ## Times -/

theorem unbroken_padded (width n : Nat) : Unbroken (padded width n) :=
  .append (.replicate _ (by decide)) (unbroken_decimalDigits n)

theorem unbroken_dateTime (seconds : Int) {separator : List Char} (h : Unbroken separator) :
    Unbroken (dateTime seconds separator) := by
  unfold dateTime
  dsimp only
  simp only [Unbroken.append_iff, Unbroken.cons_iff]
  have hpart (width n : Nat) : Unbroken (padded width n) := unbroken_padded width n
  exact ⟨⟨⟨⟨⟨⟨⟨hpart _ _, by decide, hpart _ _⟩, by decide, hpart _ _⟩, by decide, hpart _ _⟩, h⟩,
    hpart _ _⟩, h⟩, hpart _ _⟩

/-- The time of a line has no line end in it. -/
theorem unbroken_timeText {t : Reading} (h : timeText t = .ok time) : Unbroken time.toList := by
  unfold timeText at h
  cases hseconds : datedSeconds t with
  | error f =>
    rw [hseconds] at h
    cases h
  | ok seconds =>
    rw [hseconds] at h
    have hcolon : Unbroken [':'] := by decide
    have htext : String.ofList (dateTime seconds [':'] ++ "+00:00".toList) = time := Except.ok.inj h
    rw [← htext, String.toList_ofList]
    exact (unbroken_dateTime seconds hcolon).append (by decide)

/-! ## Formats -/

theorem isOneLine_jsonLine (members : Members) : IsOneLine (jsonLine members) :=
  isOneLine_concat_iff.mpr (Json.unbroken_print PrintStyle.isFlat_compact _)

theorem isOneLine_kvLine {delta : Int} {level : Level} {message : Value} (htime : Unbroken time.toList)
    (htags : ∀ t ∈ tags, IsTagName t.1) :
    IsOneLine (kvLine (payload time delta level message tags)) := by
  obtain ⟨htimeShown, hdelta, hlevel⟩ := shownMember_payload time delta level message htags
  have hlower : Unbroken level.lower.toList := by cases level <;> decide
  have hpairs : Unbroken (pairs (payload time delta level message tags)) :=
    unbroken_pairs fun m hm hname => unbroken_of_mem_payload htags hm hname
  refine isOneLine_concat_iff.mpr (unbroken_intercalate fun p hp => ?_)
  have hmem := (List.mem_filter.mp hp).1
  rw [htimeShown, hdelta, hlevel] at hmem
  simp only [List.mem_cons, List.not_mem_nil, or_false] at hmem
  rcases hmem with rfl | rfl | rfl | rfl | rfl
  · exact htime
  · exact .cons (by decide) ((unbroken_intDigits delta).append (by decide))
  · exact .append (by decide) hlower
  · exact .append (by decide) (unbroken_valueText _)
  · exact hpairs

/-- What counts as nothing has no line end in its text. -/
theorem unbroken_shown_of_isFalsy {v : Json} (h : v.isFalsy = true) : Unbroken v.shown.toList := by
  cases v with
  | null => decide
  | bool b => cases b <;> decide
  | int n =>
    show Unbroken (String.ofList (intDigits n)).toList
    rw [String.toList_ofList]
    exact unbroken_intDigits n
  | float x =>
    show Unbroken (String.ofList (x.text valueLayout).toList).toList
    rw [String.toList_ofList]
    exact x.unbroken_text (by decide) (by decide)
  | str s =>
    have hempty : s = "" := String.isEmpty_iff.mp h
    subst hempty
    decide
  | arr items =>
    have hempty : items = [] := List.isEmpty_iff.mp h
    subst hempty
    decide
  | obj members =>
    have hempty : members = [] := List.isEmpty_iff.mp h
    subst hempty
    decide

/-- In the pretty format the message is written as it is, and nothing else can break the line. -/
theorem isOneLine_prettyLine_iff {delta : Int} {level : Level} {message : Value}
    (htime : Unbroken time.toList) (htags : ∀ t ∈ tags, IsTagName t.1) :
    IsOneLine (prettyLine level (payload time delta level message tags)) ↔
      Unbroken message.plain.shown.toList := by
  obtain ⟨htimeShown, hdelta, -⟩ := shownMember_payload time delta level message htags
  have hpairs : Unbroken (pairs (payload time delta level message tags)) :=
    unbroken_pairs fun m hm hname => unbroken_of_mem_payload htags hm hname
  have hupper : Unbroken level.upper.toList := by cases level <;> decide
  have hmessage := message_payload time delta level message htags
  have hsuffix : Unbroken (if (pairs (payload time delta level message tags)).isEmpty then []
      else ' ' :: '(' :: pairs (payload time delta level message tags) ++ [')']) := by
    split
    · exact .nil
    · exact .append (.cons (by decide) (.cons (by decide) hpairs)) (by decide)
  have htext : Unbroken (if message.plain.isFalsy then [] else message.plain.shown.toList) ↔
      Unbroken message.plain.shown.toList := by
    split
    · next hfalsy => exact ⟨fun _ => unbroken_shown_of_isFalsy hfalsy, fun _ => .nil⟩
    · exact Iff.rfl
  have hline : prettyLine level (payload time delta level message tags) =
      (time.toList ++ ' ' :: level.upper.toList ++
        ' ' :: (if message.plain.isFalsy then [] else message.plain.shown.toList) ++
        (if (pairs (payload time delta level message tags)).isEmpty then []
          else ' ' :: '(' :: pairs (payload time delta level message tags) ++ [')']) ++
        ' ' :: '+' :: intDigits delta ++ ['m', 's']) ++ ['\n'] := by
    unfold prettyLine
    dsimp only
    rw [htimeShown, hdelta, hmessage]
    simp only [List.append_assoc, List.cons_append, List.nil_append]
  rw [hline, isOneLine_concat_iff]
  simp only [Unbroken.append_iff, Unbroken.cons_iff, htext]
  constructor
  · intro h
    exact h.1.1.1.2.2
  · intro h
    exact ⟨⟨⟨⟨⟨htime, by decide, hupper⟩, by decide, h⟩, hsuffix⟩, by decide, by decide,
      unbroken_intDigits delta⟩, by decide, by decide, .nil⟩

end

/-! ## Calls -/

/-- **One log call, one line.** Let the clock show a time that has a date, and let the names of the tags, those
of the logger and those of the call, be on one line and not those of the leading members.

* A call at a level that is dropped does nothing. Any other call makes a line and hands it to the sinks, or makes
  none and fails. It makes one exactly if no integer in the payload, however deeply it is nested, has more digits
  than can be written.
* The line has one line feed, at its end, and no carriage return: in the formats `kv` and `json` whatever the
  message and the values are, and in the pretty format exactly if the text of the message has no line end in it. -/
theorem one_line_for_each_call (s : State) (tags extra : Named Value) (level : Level) (message : Value)
    {delta : Int} {time : String} (hdelta : milliseconds s.lastLine s.now = .ok delta)
    (htime : timeText s.now = .ok time)
    (htags : ∀ t ∈ tags ++ extra, Unbroken t.1.toList ∧ t.1 ∉ leadingNames) :
    let members := payload time delta level message (tags.overlay extra)
    let made := line s.settings.format level members
    s.logTags tags level message extra =
        (if level.rank < s.settings.level.rank then (s, .ok ())
          else match made with
            | .error _ => ({ s with lastLine := s.now }, .error (.value unwritableIntegerText))
            | .ok written => State.write { s with lastLine := s.now } written) ∧
      ((∃ written, made = .ok written) ↔ ∀ m ∈ members, m.2.hasFewDigits = true) ∧
      ∀ written, made = .ok written →
        (s.settings.format ≠ .pretty → IsOneLine written) ∧
        (s.settings.format = .pretty → (IsOneLine written ↔ Unbroken message.plain.shown.toList)) := by
  intro members made
  have hnames : ∀ t ∈ tags.overlay extra, IsTagName t.1 := fun t ht => htags t (Named.mem_overlay ht)
  have hunbroken := unbroken_timeText htime
  refine ⟨?_, exists_line_iff _ hnames, fun written hmade => ?_⟩
  · unfold State.logTags
    rw [hdelta]
    dsimp only
    rw [htime]
    dsimp only
    split
    · rfl
    · show (match made with | .error f => _ | .ok written => _) = _
      cases hmade : made with
      | ok written => rfl
      | error f => rw [line_eq_error hmade]
  · rw [eq_lineText_of_line hmade]
    refine ⟨fun hformat => ?_, fun hformat => ?_⟩
    · cases hf : s.settings.format with
      | json => exact isOneLine_jsonLine _
      | kv => exact isOneLine_kvLine hunbroken hnames
      | pretty => exact absurd hf hformat
    · rw [hformat]
      exact isOneLine_prettyLine_iff hunbroken hnames

/-- A message, a cause and a nested name that each try to start a line of their own. -/
theorem forged_lines_stay_on_one :
    let s : State := { State.initial (some (.whole 1700000000)) (.ofInt 0) [] with
      settings := ⟨.info, .kv, true, false⟩ }
    let tags : Named Value := [("service", .json (.str "lsp.client"))]
    let extra : Named Value := [("error", .failure (.runtime "a\r\nlevel=error") [.value "b\n"]),
      ("data", .json (.arr [.obj [("k\n", .str "\r")]]))]
    let message : Value := .json (.str "x\n2023-11-14T22:13:20+00:00 +0ms level=info msg=y")
    milliseconds s.lastLine s.now = .ok 0 ∧ timeText s.now = .ok "2023-11-14T22:13:20+00:00" ∧
      (∀ t ∈ tags ++ extra, Unbroken t.1.toList ∧ t.1 ∉ leadingNames) ∧
      ∃ written, line .kv .warn
        (payload "2023-11-14T22:13:20+00:00" 0 .warn message (tags.overlay extra)) = .ok written ∧
        IsOneLine written := by
  intro s tags extra message
  have hdelta : milliseconds s.lastLine s.now = .ok 0 := rfl
  have htime : timeText s.now = .ok "2023-11-14T22:13:20+00:00" := by decide +kernel
  have htags : ∀ t ∈ tags ++ extra, Unbroken t.1.toList ∧ t.1 ∉ leadingNames := by
    intro t ht
    simp only [tags, extra, List.cons_append, List.nil_append, List.mem_cons, List.not_mem_nil, or_false] at ht
    rcases ht with rfl | rfl | rfl
    · decide
    · decide
    · decide
  obtain ⟨-, hmade, hline⟩ := one_line_for_each_call s tags extra .warn message hdelta htime htags
  obtain ⟨written, hwritten⟩ := hmade.mpr (by decide +kernel)
  exact ⟨hdelta, htime, htags, written, hwritten, (hline written hwritten).1 (by decide)⟩

end Log

end EditorServices
