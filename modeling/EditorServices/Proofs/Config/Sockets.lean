import EditorServices.Proofs.Schema.Records
import EditorServices.Proofs.Schema.Readings
import EditorServices.Transport.Endpoint
import Mathlib.Data.List.TakeWhile

/-!
# `Proofs.Config.Sockets` — which sockets can be used

The text of a socket is looked at twice. The check of a configuration wants a host, a colon and a port of
digits; who connects reads the port as a number. The two do not have the same digits in mind: a superscript is
a digit, and forms no decimal number, and a number has no more than so many digits. So a configuration may be
accepted whose socket cannot be used, and the ports that are numbers are just the ones for which that does not
happen.

## Contents
- **Ports.** `IsPort`, and `plainNumber_eq_ok_iff`.
- **Forms.** `IsSocket`, `cutSocket?_eq_some_iff` and `isSocketText_iff`.
- **Sections.** `LspConfig.ReadFrom`, what an accepted section is read from.
- **The headline.** `accepted_socket_usable`, and a socket that is accepted and cannot be used.
-/

namespace EditorServices

/-! ## Ports -/

/-- A text that is read as a number: decimal digits of any script, and not too many of them. -/
structure IsPort (port : List Char) : Prop where
  nonempty : port ≠ []
  decimal : ∀ d ∈ port, (decimalValue? d).isSome = true
  bounded : port.length ≤ maxIntegerDigits

/-- The number that decimal digits write. -/
def portNumber (port : List Char) : Nat := digitsNumber (port.filterMap decimalValue?)

/-- What is read as a number is just that. -/
theorem plainNumber_eq_ok_iff {port : List Char} {n : Nat} :
    plainNumber port = .ok n ↔ IsPort port ∧ n = portNumber port := by
  unfold plainNumber
  dsimp only
  set digits := (port.map decimalValue?).takeWhile Option.isSome with hdigits
  constructor
  · intro h
    split at h
    · cases h
    · next hfew =>
      split at h
      · next hall =>
        obtain ⟨hlength, hne⟩ := hall
        have hstarts : digits <+: port.map decimalValue? := List.takeWhile_prefix _
        have heq : digits = port.map decimalValue? := hstarts.eq_of_length (by rw [hlength, List.length_map])
        cases h
        refine ⟨⟨?_, fun d hd => ?_, ?_⟩, ?_⟩
        · rintro rfl
          exact hne heq
        · exact List.mem_takeWhile_imp (hdigits ▸ heq ▸ List.mem_map_of_mem hd)
        · omega
        · rw [heq, List.filterMap_map]
          rfl
      · cases h
  · rintro ⟨hport, rfl⟩
    have heq : digits = port.map decimalValue? := by
      rw [hdigits, List.takeWhile_eq_self_iff]
      simpa using hport.decimal
    have hlength : digits.length = port.length := by rw [heq, List.length_map]
    have hne : digits ≠ [] := by
      rw [heq, ne_eq, List.map_eq_nil_iff]
      exact hport.nonempty
    have hfew : ¬ maxIntegerDigits < digits.length := by
      rw [hlength, Nat.not_lt]
      exact hport.bounded
    rw [if_neg hfew, if_pos ⟨hlength, hne⟩, heq, List.filterMap_map]
    rfl

/-! ## Forms -/

theorem cutSocket?_append {host port : List Char} (hport : ':' ∉ port) :
    cutSocket? (host ++ ':' :: port) = some (host, port) := by
  have hall : ∀ c ∈ port.reverse, decide (c ≠ ':') = true := by
    intro c hc
    rw [decide_eq_true_eq]
    rintro rfl
    exact hport (List.mem_reverse.mp hc)
  have hlast : ((host ++ ':' :: port).reverse.takeWhile (· ≠ ':')).reverse = port := by
    rw [List.reverse_append, List.reverse_cons, List.append_assoc, List.takeWhile_append_of_pos hall]
    simp
  have hlength : (host ++ ':' :: port).length - port.length - 1 = host.length := by
    rw [List.length_append, List.length_cons]
    omega
  unfold cutSocket?
  dsimp only
  rw [if_pos (by simp), hlast, hlength, List.take_left]

/-- A text is cut at its last colon. -/
theorem cutSocket?_eq_some_iff {s host port : List Char} :
    cutSocket? s = some (host, port) ↔ s = host ++ ':' :: port ∧ ':' ∉ port := by
  refine ⟨fun h => ?_, fun ⟨hs, hport⟩ => hs ▸ cutSocket?_append hport⟩
  have hcolon : ':' ∈ s.reverse := by
    unfold cutSocket? at h
    split at h
    · next hcolon => simpa using hcolon
    · cases h
  obtain ⟨last, first, hsplit, hlast⟩ := List.eq_append_cons_of_mem hcolon
  obtain rfl : s = first.reverse ++ ':' :: last.reverse := by
    rw [← List.reverse_reverse s, hsplit]
    simp
  have hlast' : ':' ∉ last.reverse := by rwa [List.mem_reverse]
  rw [cutSocket?_append hlast'] at h
  cases h
  exact ⟨rfl, hlast'⟩

/-- The text of a socket: a host, a colon and a port of digits. -/
structure IsSocket (s : String) (host port : List Char) : Prop where
  text : s.toList = host ++ ':' :: port
  last : ':' ∉ port
  named : host ≠ []
  nonempty : port ≠ []
  digits : ∀ d ∈ port, isAnyDigit d = true

theorem isSocketText_iff {s : String} : isSocketText s.toList = true ↔ ∃ host port, IsSocket s host port := by
  unfold isSocketText
  constructor
  · intro h
    split at h
    · next host port hcut =>
      obtain ⟨htext, hlast⟩ := cutSocket?_eq_some_iff.mp hcut
      simp only [Bool.and_eq_true, Bool.not_eq_true', List.isEmpty_eq_false_iff, List.all_eq_true] at h
      exact ⟨host, port, htext, hlast, h.1.1, h.1.2, h.2⟩
    · cases h
  · rintro ⟨host, port, h⟩
    rw [cutSocket?_eq_some_iff.mpr ⟨h.text, h.last⟩]
    simp only [Bool.and_eq_true, Bool.not_eq_true', List.isEmpty_eq_false_iff, List.all_eq_true]
    exact ⟨⟨h.named, h.nonempty⟩, h.digits⟩

/-! ## Sections -/

namespace LspConfig

open Schema

/-- What an accepted section is read from: each of its members one by one, and it names no two endpoints. -/
structure ReadFrom (c : LspConfig) (ms : Members) : Prop where
  command : optional ms commandField none (nullable (listOf string)) = .valid c.command
  socket : optional ms socketField none (nullable checkSocket) = .valid c.socket
  language : optional ms languageField none (nullable string) = .valid c.languageId
  delay : optional ms delayField 300 (naturalFrom 0) = .valid c.settleDelayMs
  warning : optional ms warningField false boolean = .valid c.disableWarning
  error : optional ms errorField false boolean = .valid c.disableError
  env : optional ms envField [] (dictOf string) = .valid c.env
  known : extraNames fields ms = []
  single : (c.hasCommand && c.hasSocket) = false

/-- **A section is accepted exactly if it is an object that can be read.** -/
theorem check_eq_valid_iff {j : Json} {c : LspConfig} :
    check j = .valid c ↔ ∃ ms, j = .obj ms ∧ c.ReadFrom ms := by
  constructor
  · intro h
    cases j with
    | obj ms =>
      obtain ⟨c', hnamed, hsingle⟩ := Checked.refine_eq_valid_iff.mp h
      obtain ⟨hread, hknown⟩ := Checked.withIssues_eq_valid_iff.mp hnamed
      -- the check is a chain of fields, taken apart from the last one on
      obtain ⟨_, env, h₆, henv, rfl⟩ := Checked.ap_eq_valid hread
      obtain ⟨_, error, h₅, herror, rfl⟩ := Checked.ap_eq_valid h₆
      obtain ⟨_, warning, h₄, hwarning, rfl⟩ := Checked.ap_eq_valid h₅
      obtain ⟨_, delay, h₃, hdelay, rfl⟩ := Checked.ap_eq_valid h₄
      obtain ⟨_, language, h₂, hlanguage, rfl⟩ := Checked.ap_eq_valid h₃
      obtain ⟨_, socket, h₁, hsocket, rfl⟩ := Checked.ap_eq_valid h₂
      obtain ⟨command, hcommand, rfl⟩ := Checked.map_eq_valid_iff.mp h₁
      unfold oneEndpoint at hsingle
      split at hsingle
      · cases hsingle
      · next hone =>
        cases hsingle
        exact ⟨ms, rfl, hcommand, hsocket, hlanguage, hdelay, hwarning, herror, henv, hknown,
          Bool.eq_false_iff.mpr hone⟩
    | _ => cases h
  · rintro ⟨ms, rfl, h⟩
    show checkMembers ms = .valid c
    unfold checkMembers
    rw [h.command, h.socket, h.language, h.delay, h.warning, h.error, h.env, h.known]
    show oneEndpoint ms c = .valid c
    unfold oneEndpoint
    rw [h.single]
    rfl

theorem checkSocket_eq_valid_iff {v : Json} {s : String} :
    checkSocket v = .valid s ↔ v = .str s ∧ ∃ host port, IsSocket s host port := by
  unfold checkSocket
  rw [Checked.refine_eq_valid_iff, ← isSocketText_iff]
  constructor
  · rintro ⟨t, ht, h⟩
    split at h
    · next htext =>
      cases h
      exact ⟨string_eq_valid_iff.mp ht, htext⟩
    · cases h
  · rintro ⟨rfl, hs⟩
    exact ⟨s, rfl, if_pos hs⟩

variable {c : LspConfig} {ms : Members} {s : String} {host port : List Char}

/-- A section has the socket that is given, which has the form of one. -/
theorem ReadFrom.socket_eq_some_iff (h : c.ReadFrom ms) :
    c.socket = some s ↔ ms.get? "socket" = some (.str s) := by
  rcases optional_eq_valid h.socket with ⟨hnone, hsocket⟩ | ⟨v, hv, hcheck⟩
  · replace hnone : ms.get? "socket" = none := hnone
    simp [hnone, hsocket]
  · replace hv : ms.get? "socket" = some v := hv
    rcases nullable_eq_valid hcheck with ⟨rfl, hsocket⟩ | ⟨t, hsocket, ht⟩
    · simp [hv, hsocket]
    · obtain ⟨rfl, -⟩ := checkSocket_eq_valid_iff.mp ht
      simp [hv, hsocket, eq_comm]

theorem ReadFrom.exists_isSocket (h : c.ReadFrom ms) (hs : c.socket = some s) :
    ∃ host port, IsSocket s host port := by
  rcases optional_eq_valid h.socket with ⟨-, hsocket⟩ | ⟨v, -, hcheck⟩
  · rw [hs] at hsocket
    cases hsocket
  · rcases nullable_eq_valid hcheck with ⟨-, hsocket⟩ | ⟨t, hsocket, ht⟩
    · rw [hs] at hsocket
      cases hsocket
    · rw [hs] at hsocket
      cases hsocket
      exact (checkSocket_eq_valid_iff.mp ht).2

/-! ## Addresses -/

/-- A text that has the form of a socket is not empty. -/
theorem hasSocket_of_isSocket (hs : c.socket = some s) (h : IsSocket s host port) : c.hasSocket = true := by
  have hne : s ≠ "" := by
    rintro rfl
    exact absurd h.text (by simp)
  simp [hasSocket, hs, hne]

/-- The address of a socket is its host and what its port is read as. -/
theorem socketAddress_of_isSocket (hs : c.socket = some s) (h : IsSocket s host port) :
    c.socketAddress = match plainNumber port with
      | .ok n => .ok (String.ofList host, n)
      | .error message => .error (.value message) := by
  have hne : s ≠ "" := by
    rintro rfl
    exact absurd h.text (by simp)
  unfold socketAddress
  rw [hs]
  dsimp only
  rw [if_neg (by simpa using hne), cutSocket?_eq_some_iff.mpr ⟨h.text, h.last⟩]
  rfl

end LspConfig

/-! ## The headline -/

open Transport (Endpoint)

/-- **The socket of an accepted section can be used if its port is a number, and only then.** Its address is
the text before the last colon with that number, and a server is reached there; else the address and the way to
the server fail, with the same words. A text that has not the form of a socket is not accepted. -/
theorem accepted_socket_usable {j : Json} {c : LspConfig} {s : String} (hcheck : LspConfig.check j = .valid c)
    (hs : c.socket = some s) :
    (∃ host port, IsSocket s host port ∧
      (IsPort port → c.socketAddress = .ok (String.ofList host, portNumber port) ∧
        ∀ place cwd, Endpoint.ofConfig place c cwd =
          .ok (.socket (String.ofList host) (portNumber port) Endpoint.defaultTimeout)) ∧
      (¬ IsPort port → ∃ message, c.socketAddress = .error (.value message) ∧
        ∀ place cwd, Endpoint.ofConfig place c cwd = .error (.value message))) ∧
    ∀ (ms : Members) (text : String), ms.get? "socket" = some (.str text) →
      (¬ ∃ host port, IsSocket text host port) → (LspConfig.check (.obj ms)).isValid = false := by
  constructor
  · obtain ⟨ms, rfl, hread⟩ := LspConfig.check_eq_valid_iff.mp hcheck
    obtain ⟨host, port, hsocket⟩ := hread.exists_isSocket hs
    have haddress := LspConfig.socketAddress_of_isSocket hs hsocket
    have hendpoint (place : Host) (cwd : Option String) : Endpoint.ofConfig place c cwd =
        c.socketAddress.map fun address => .socket address.1 address.2 Endpoint.defaultTimeout :=
      if_pos (LspConfig.hasSocket_of_isSocket hs hsocket)
    refine ⟨host, port, hsocket, fun hport => ?_, fun hport => ?_⟩
    · rw [plainNumber_eq_ok_iff.mpr ⟨hport, rfl⟩] at haddress
      refine ⟨haddress, fun place cwd => ?_⟩
      rw [hendpoint, haddress]
      rfl
    · cases hnumber : plainNumber port with
      | ok n => exact absurd (plainNumber_eq_ok_iff.mp hnumber).1 hport
      | error message =>
        rw [hnumber] at haddress
        refine ⟨message, haddress, fun place cwd => ?_⟩
        rw [hendpoint, haddress]
        rfl
  · intro ms text htext hform
    cases hread : LspConfig.check (.obj ms) with
    | invalid is => rfl
    | valid c' =>
      obtain ⟨_, hms, hread⟩ := LspConfig.check_eq_valid_iff.mp hread
      cases hms
      exact absurd (hread.exists_isSocket (hread.socket_eq_some_iff.mpr htext)) hform

/-- A section with a socket and nothing else. -/
def socketOnly (s : String) : LspConfig := { LspConfig.empty with socket := some s }

/-- A host may have colons of its own. -/
theorem usable_loopback :
    LspConfig.check (.obj [("socket", .str "::1:80")]) = .valid (socketOnly "::1:80") ∧
      (socketOnly "::1:80").socketAddress = .ok ("::1", 80) := by
  have hcheck : LspConfig.check (.obj [("socket", .str "::1:80")]) = .valid (socketOnly "::1:80") := rfl
  obtain ⟨⟨host, port, hsocket, husable, -⟩, -⟩ := accepted_socket_usable hcheck rfl
  obtain ⟨rfl, rfl⟩ : host = "::1".toList ∧ port = "80".toList := by
    have hcut := cutSocket?_eq_some_iff.mpr ⟨hsocket.text, hsocket.last⟩
    have hdecide : cutSocket? "::1:80".toList = some ("::1".toList, "80".toList) := by decide +kernel
    exact Prod.mk.inj (Option.some.inj (hcut.symm.trans hdecide))
  have hdigits : "80".toList.all (fun d => (decimalValue? d).isSome) = true := by decide +kernel
  have hport : IsPort "80".toList := ⟨by decide, List.all_eq_true.mp hdigits, by decide⟩
  exact ⟨hcheck, (husable hport).1⟩

/-- **Not every accepted socket can be used**: a superscript passes for the digits of a port and is no
number. -/
theorem superscript_port_unusable :
    ¬ ∀ (j : Json) (c : LspConfig) (s : String), LspConfig.check j = .valid c → c.socket = some s →
      ∃ host port, c.socketAddress = .ok (host, port) := by
  intro h
  obtain ⟨host, port, haddress⟩ :=
    h (.obj [("socket", .str "h:²")]) (socketOnly "h:²") "h:²" rfl rfl
  have hfails : (socketOnly "h:²").socketAddress.toOption = none := by decide +kernel
  rw [haddress] at hfails
  cases hfails

end EditorServices
