import Jasl.Common.UrlRounds

/-!
# Parsing what was put together

The URLs the parser is meant for: `[proto "://"][login ":" pass "@"]host[":" port]["/" tail]`
(`UrlParts.text`). A new `Url` of such a text gives back the authority components
(`url_recovers_the_parts`), for the parser arrives at the ranges the parts take in
the text (`constructs_parts`), with and without assertions.

It refuses nothing. Every text the parser comes through makes a valid `Url`
(`sets_keeps`), so the texts of this form are exactly those on which it
neither fails nor accepts what is malformed (`rejects_iff_hasForm`).
-/

set_option autoImplicit false

namespace Jasl

open Library StdString Url

/-! ## The form of a URL -/

/-- A component without delimiters. -/
structure UrlName where
  text : List Char
  nonempty : text ≠ []
  plain : ∀ c ∈ text, [':', '/', '@'].contains c = false

/-- A port in digits. -/
structure UrlPort where
  text : List Char
  nonempty : text ≠ []
  inDigits : ∀ c ∈ text, digits.contains c = true

/-- The parts of a URL; a login comes with a password. -/
structure UrlParts where
  proto : Option UrlName
  credentials : Option (UrlName × UrlName)
  host : UrlName
  port : Option UrlPort
  tail : Option (List Char)

namespace UrlParts

variable (p : UrlParts)

def protoText : List Char := p.proto.elim [] fun proto => proto.text ++ [':', '/', '/']

def credentialsText : List Char :=
  p.credentials.elim [] fun (login, password) => login.text ++ ':' :: (password.text ++ ['@'])

def portText : List Char := p.port.elim [] fun port => ':' :: port.text

def tailText : List Char := p.tail.elim [] fun tail => '/' :: tail

/-- `[proto "://"][login ":" pass "@"]host[":" port]["/" tail]`. -/
def text : List Char :=
  p.protoText ++ (p.credentialsText ++ (p.host.text ++ (p.portText ++ p.tailText)))

/-- What stands behind the `'/'` that ends the authority, with the sentinel. -/
def behind : List Char := p.tail.elim [] fun tail => tail ++ ['/']

/-- Where the login or the host begins. -/
def authorityStart : ℕ := p.protoText.length

def hostStart : ℕ := p.authorityStart + p.credentialsText.length

def hostEnd : ℕ := p.hostStart + p.host.text.length

/-- Where the `'/'` behind the authority stands. -/
def pathStart : ℕ := p.hostEnd + p.portText.length

/-- The parser after the text. -/
def parsed : Url where
  mUrl := p.text ++ ['/']
  mProto := .between 0 (p.authorityStart - 3)
  mLogin := p.credentials.elim {} fun (login, _) =>
    .between p.authorityStart (p.authorityStart + login.text.length)
  mPass := p.credentials.elim {} fun (login, password) =>
    .between (p.authorityStart + login.text.length + 1)
      (p.authorityStart + login.text.length + 1 + password.text.length)
  mHost := .between p.hostStart p.hostEnd
  mPort := p.port.elim {} fun port => .between (p.hostEnd + 1) (p.hostEnd + 1 + port.text.length)
  mTail := .between (p.pathStart + 1) (p.text.length + 1)
  mValid := true

end UrlParts

/-! ## Pieces of the text -/

section Pieces

variable {before piece rest : List Char} {d : Char}

theorem getElem?_piece (before piece rest : List Char) (d : Char) :
    (before ++ (piece ++ d :: rest))[before.length + piece.length]? = some d := by
  simp

/-- The delimiter behind a piece without delimiters is the next one. -/
theorem nextDelimiter_piece (before rest : List Char)
    (plain : ∀ c ∈ piece, [':', '/', '@'].contains c = false)
    (isDelimiter : d = ':' ∨ d = '/' ∨ d = '@') :
    nextDelimiter (before ++ (piece ++ d :: rest)) before.length =
      some (before.length + piece.length) := by
  refine nextDelimiter_eq_some.mpr ⟨Nat.le_add_right _ _, ?_, clear_piece _ _ plain⟩
  rw [getElem?_piece]
  rcases isDelimiter with rfl | rfl | rfl <;> simp

/-- A range that a piece fills reads the piece. -/
theorem str_piece {m : List Char} {first last : ℕ} (written : m = before ++ (piece ++ rest))
    (fits : m.length < 2 ^ 63) (begins : first = before.length)
    (ends : last = first + piece.length) :
    (SubString.between first last).str m = .ok piece := by
  have total : m.length = before.length + (piece.length + rest.length) := by simp [written]
  rw [SubString.between_str (by omega) (by omega) (by omega), written]
  simp [begins, ends]

/-- A piece without delimiters is not empty, so a `"://"` does not begin before it. -/
theorem not_schemeAt_piece (nonempty : piece ≠ []) {test : Char → Bool}
    (only : ∀ c ∈ piece, test c = false) (slash : test '/' = true) {m : List Char} {i : ℕ}
    (written : m = before ++ (piece ++ rest)) (here : i + 1 = before.length) : ¬SchemeAt m i := by
  rintro ⟨_, second, _⟩
  obtain ⟨c, tail, rfl⟩ := List.exists_cons_of_ne_nil nonempty
  rw [written, here, List.getElem?_append_right (Nat.le_refl _), Nat.sub_self] at second
  cases second
  have differs := only '/' List.mem_cons_self
  rw [slash] at differs
  cases differs

end Pieces

/-! ## The rounds of a text of the form -/

section Rounds

variable {ndebug : Bool} {u : Url} {b : ℕ} {before rest : List Char}
  {result : Except StringFault Url}

/-- The login and the password are two rounds. -/
theorem ends_of_credentials {login pass : UrlName} (scan : Scanning u b before.length)
    (written : u.mUrl = before ++ (login.text ++ ':' :: (pass.text ++ '@' :: rest)))
    (start : b = before.length) (noLogin : u.mLogin.isSet = false)
    (noPass : u.mPass.isSet = false) :
    let i := before.length + login.text.length
    let after : Url := { u with
      mLogin := .between before.length i, mPass := .between (i + 1) (i + 1 + pass.text.length) }
    (Ends (body ndebug) (u, before.length) result ↔
      Ends (body ndebug) (after, i + 1 + pass.text.length + 1) result) ∧
    Scanning after b (i + 1 + pass.text.length + 1) := by
  intro i after
  have longLogin := List.length_pos_iff.mpr login.nonempty
  have found : nextDelimiter u.mUrl before.length = some i := by
    rw [written]
    exact nextDelimiter_piece _ _ login.plain (.inl rfl)
  have colon : u.mUrl[i]? = some ':' := by
    rw [written]
    exact getElem?_piece _ _ _ _
  have again : u.mUrl = (before ++ (login.text ++ [':'])) ++ (pass.text ++ '@' :: rest) := by
    rw [written]
    simp
  have upTo : (before ++ (login.text ++ [':'])).length = i + 1 := by
    rw [List.length_append, List.length_append, List.length_singleton, ← Nat.add_assoc]
  have foundAt : nextDelimiter u.mUrl (i + 1) = some (i + 1 + pass.text.length) := by
    rw [again, ← upTo]
    exact nextDelimiter_piece _ _ pass.plain (.inr (.inr rfl))
  have at_ : u.mUrl[i + 1 + pass.text.length]? = some '@' := by
    rw [again, ← upTo]
    exact getElem?_piece _ _ _ _
  have inName : ¬EndsProto u.mUrl b i := fun ends =>
    not_schemeAt_piece pass.nonempty pass.plain rfl again upTo.symm ends.2
  have noPort : ∀ n, ¬PortAt u.mUrl i n := by
    intro n port
    have same := Option.some.inj (port.nextDelimiter.symm.trans foundAt)
    have slash := port.2.1
    rw [same, at_] at slash
    cases slash
  have lastColon : lastUpTo (· == ':') u.mUrl (i + 1 + pass.text.length - 1) = some i := by
    refine lastUpTo_eq_some.mpr ⟨by omega, hit_beq_iff.mpr colon, ?_⟩
    rw [show i + 1 + pass.text.length - 1 + 1 = i + 1 + pass.text.length by omega]
    refine (nextDelimiter_eq_some.mp foundAt).2.2.of_imp fun c isColon => ?_
    rw [eq_of_beq isColon]
    decide
  have next : Scanning { u with mLogin := .between b i } b (i + 1) :=
    scan.next rfl rfl found (by rw [colon]; decide)
  constructor
  · rw [scan.ends_of_login found colon inName (.inr noPort) noLogin,
      ends_of_at next.isSealed foundAt at_ noPass (SubString.isSet_between.mpr (by omega))
        (by omega) lastColon, start]
  · exact next.next rfl rfl foundAt (by rw [at_]; decide)

/-- The port, when there is one, and the `'/'` that ends the parsing. -/
theorem ends_of_authority_end (ndebug : Bool) (result : Except StringFault Url)
    {host : UrlName} {port : Option UrlPort} {tail : List Char}
    (scan : Scanning u b before.length)
    (written : u.mUrl =
      before ++ (host.text ++ (port.elim [] (fun port => ':' :: port.text) ++ '/' :: tail)))
    (noPort : u.mPort = {}) :
    let e := before.length + host.text.length
    Ends (body ndebug) (u, before.length) result ↔
      finish ndebug { u with
          mPort := port.elim {} fun port => .between (e + 1) (e + 1 + port.text.length) }
        (e + (port.elim [] fun port => ':' :: port.text).length) = result := by
  intro e
  cases port with
  | none =>
      have found : nextDelimiter u.mUrl before.length = some e := by
        rw [written]
        exact nextDelimiter_piece _ _ host.plain (.inr (.inl rfl))
      have slash : u.mUrl[e]? = some '/' := by
        rw [written]
        exact getElem?_piece _ _ _ _
      have same : { u with mPort := {} } = u := by
        rw [← noPort]
      rw [ends_of_slash scan.isSealed found slash]
      simp only [Option.elim_none, List.length_nil, Nat.add_zero, same]
  | some port =>
      have found : nextDelimiter u.mUrl before.length = some e := by
        rw [written]
        exact nextDelimiter_piece _ _ host.plain (.inl rfl)
      have colon : u.mUrl[e]? = some ':' := by
        rw [written]
        exact getElem?_piece _ _ _ _
      have again : u.mUrl = (before ++ (host.text ++ [':'])) ++ (port.text ++ '/' :: tail) := by
        rw [written]
        simp
      have upTo : (before ++ (host.text ++ [':'])).length = e + 1 := by
        rw [List.length_append, List.length_append, List.length_singleton, ← Nat.add_assoc]
      have onlyDigits : ∀ c ∈ port.text, (!digits.contains c) = false := by
        intro c member
        rw [port.inDigits c member]
        rfl
      have portAt : PortAt u.mUrl e (e + 1 + port.text.length) := by
        refine ⟨?_, ?_, ?_⟩
        · have long := List.length_pos_iff.mpr port.nonempty
          omega
        · rw [again, ← upTo]
          exact getElem?_piece _ _ _ _
        · rw [again, ← upTo]
          exact clear_piece _ _ onlyDigits
      have inName : ¬EndsProto u.mUrl b e := fun ends =>
        not_schemeAt_piece port.nonempty onlyDigits rfl again upTo.symm ends.2
      rw [scan.ends_of_port found colon inName (by rw [noPort]; rfl) portAt]
      simp only [Option.elim_some, List.length_cons, Nat.add_assoc, Nat.add_comm 1]

end Rounds

namespace UrlParts

variable {ndebug : Bool} {result : Except StringFault Url} (p : UrlParts)

/-- The text with the sentinel. -/
theorem text_sentinel : p.text ++ ['/'] =
    p.protoText ++ (p.credentialsText ++ (p.host.text ++ (p.portText ++ '/' :: p.behind))) := by
  cases inTail : p.tail <;> simp [text, tailText, behind, inTail]

/-- The parser where the login or the host begins. -/
def atAuthority : Url where
  mUrl := p.text ++ ['/']
  mProto := .between 0 (p.authorityStart - 3)

/-- The parser where the host begins. -/
def atHost : Url :=
  { p.atAuthority with
    mLogin := p.credentials.elim {} fun (login, _) =>
      .between p.authorityStart (p.authorityStart + login.text.length)
    mPass := p.credentials.elim {} fun (login, password) =>
      .between (p.authorityStart + login.text.length + 1)
        (p.authorityStart + login.text.length + 1 + password.text.length) }

theorem ends_atAuthority (ndebug : Bool) (result : Except StringFault Url)
    (hm : Sealed (p.text ++ ['/'])) :
    (Ends (body ndebug) ({ mUrl := p.text ++ ['/'] }, 0) result ↔
      Ends (body ndebug) (p.atAuthority, p.authorityStart) result) ∧
    Scanning p.atAuthority p.authorityStart p.authorityStart := by
  have scan : Scanning { mUrl := p.text ++ ['/'] } 0 0 := scanning_start hm rfl
  have written := p.text_sentinel
  rw [atAuthority, authorityStart]
  rw [protoText] at written ⊢
  cases proto : p.proto with
  | none => exact ⟨Iff.rfl, scan⟩
  | some name =>
      rw [proto, Option.elim_some, List.append_assoc] at written
      have long : (name.text ++ [':', '/', '/']).length = name.text.length + 3 := by simp
      have found : nextDelimiter (p.text ++ ['/']) 0 = some name.text.length := by
        have next := nextDelimiter_piece [] ('/' :: '/' :: (p.credentialsText ++ (p.host.text ++
          (p.portText ++ '/' :: p.behind)))) name.plain (.inl rfl)
        rw [List.length_nil, Nat.zero_add] at next
        rw [written]
        exact next
      have ends : EndsProto (p.text ++ ['/']) 0 name.text.length := by
        refine ⟨by omega, ?_⟩
        rw [written, SchemeAt]
        simp
      rw [Option.elim_some, long, Nat.add_sub_cancel]
      exact ⟨scan.ends_of_scheme found ends, scan.next_segment ends⟩

theorem ends_atHost (ndebug : Bool) (result : Except StringFault Url)
    (scan : Scanning p.atAuthority p.authorityStart p.authorityStart) :
    (Ends (body ndebug) (p.atAuthority, p.authorityStart) result ↔
      Ends (body ndebug) (p.atHost, p.hostStart) result) ∧
    Scanning p.atHost p.authorityStart p.hostStart := by
  have written := p.text_sentinel
  rw [atHost, hostStart]
  rw [credentialsText] at written ⊢
  cases credentials : p.credentials with
  | none => exact ⟨Iff.rfl, scan⟩
  | some names =>
      obtain ⟨login, pass⟩ := names
      rw [credentials, Option.elim_some] at written
      have here : p.atAuthority.mUrl = p.protoText ++ (login.text ++ ':' :: (pass.text ++
          '@' :: (p.host.text ++ (p.portText ++ '/' :: p.behind)))) := by
        rw [atAuthority, written]
        simp
      have length : (login.text ++ ':' :: (pass.text ++ ['@'])).length =
          login.text.length + 1 + pass.text.length + 1 := by
        simp
        omega
      rw [Option.elim_some, Option.elim_some, Option.elim_some, length, ← Nat.add_assoc,
        ← Nat.add_assoc, ← Nat.add_assoc]
      exact ends_of_credentials scan here rfl rfl rfl

/-- The parser at the `'/'` that ends the parsing. -/
def atPath : Url :=
  { p.atHost with
    mPort := p.port.elim {} fun port =>
      .between (p.hostEnd + 1) (p.hostEnd + 1 + port.text.length) }

theorem ends_atPath (scan : Scanning p.atHost p.authorityStart p.hostStart) :
    Ends (body ndebug) (p.atHost, p.hostStart) result ↔
      finish ndebug p.atPath p.pathStart = result := by
  have upTo : p.hostStart = (p.protoText ++ p.credentialsText).length := by
    rw [List.length_append]
    rfl
  have written : p.atHost.mUrl = (p.protoText ++ p.credentialsText) ++
      (p.host.text ++ (p.port.elim [] (fun port => ':' :: port.text) ++ '/' :: p.behind)) := by
    rw [atHost, atAuthority, p.text_sentinel, List.append_assoc]
    rfl
  have ended := ends_of_authority_end ndebug result (upTo ▸ scan) written rfl
  rw [← upTo] at ended
  exact ended

theorem portText_plain : ∀ c ∈ p.portText, (c == '@') = false := by
  intro c member
  rw [portText] at member
  cases port : p.port with
  | none =>
      rw [port] at member
      cases member
  | some name =>
      rw [port, Option.elim_some] at member
      rcases List.mem_cons.mp member with rfl | inDigits
      · decide
      · by_contra isAt
        rw [Bool.not_eq_false] at isAt
        have digit := name.inDigits c inDigits
        rw [eq_of_beq isAt] at digit
        exact absurd digit (by decide)

theorem host_plain : ∀ c ∈ p.host.text, (c == '@') = false := by
  intro c member
  by_contra isAt
  rw [Bool.not_eq_false] at isAt
  have plain := p.host.plain c member
  rw [eq_of_beq isAt] at plain
  exact absurd plain (by decide)

theorem length_sentinel : (p.text ++ ['/']).length = p.pathStart + 1 + p.behind.length := by
  rw [text_sentinel, pathStart, hostEnd, hostStart, authorityStart]
  simp only [List.length_append, List.length_cons]
  omega

/-- The last `'@'` of the authority stands before the host. -/
theorem lastUpTo_at {names : UrlName × UrlName} (credentials : p.credentials = some names) :
    0 < p.hostStart ∧ lastUpTo (· == '@') (p.text ++ ['/']) (p.pathStart - 1) =
      some (p.hostStart - 1) := by
  obtain ⟨login, pass⟩ := names
  have starts : p.hostStart = p.protoText.length + p.credentialsText.length := rfl
  have ends : p.pathStart = p.hostStart + p.host.text.length + p.portText.length := rfl
  have shape : p.credentialsText = (login.text ++ ':' :: pass.text) ++ ['@'] := by
    simp [credentialsText, credentials]
  have length : p.credentialsText.length = (login.text ++ ':' :: pass.text).length + 1 := by
    rw [shape, List.length_append, List.length_singleton]
  have at_ : (p.text ++ ['/'])[p.hostStart - 1]? = some '@' := by
    have place := getElem?_piece p.protoText (login.text ++ ':' :: pass.text)
      (p.host.text ++ (p.portText ++ '/' :: p.behind)) '@'
    rw [text_sentinel, shape, List.append_assoc, List.singleton_append, ← place]
    congr 1
    omega
  have clear : Clear (· == '@') (p.text ++ ['/']) p.hostStart p.pathStart := by
    have free : ∀ c ∈ p.host.text ++ p.portText, (c == '@') = false := by
      intro c member
      rcases List.mem_append.mp member with inHost | inPort
      · exact p.host_plain c inHost
      · exact p.portText_plain c inPort
    have piece := clear_piece (p.protoText ++ p.credentialsText) ('/' :: p.behind) free
    simp only [List.append_assoc, List.length_append] at piece
    rw [text_sentinel]
    exact piece.mono (by omega) (by omega)
  refine ⟨by omega, lastUpTo_eq_some.mpr ⟨by omega, hit_beq_iff.mpr at_, ?_⟩⟩
  exact clear.mono (by omega) (by omega)

/-- The first `"://"` ends the protocol. -/
theorem find_scheme {name : UrlName} (proto : p.proto = some name) :
    find (p.text ++ ['/']) [':', '/', '/'] = name.text.length := by
  have written : p.text ++ ['/'] = name.text ++ ([':', '/', '/'] ++ (p.credentialsText ++
      (p.host.text ++ (p.portText ++ '/' :: p.behind)))) := by
    rw [text_sentinel, protoText, proto, Option.elim_some, List.append_assoc]
  rw [find, firstBlock_eq_some (i := name.text.length) (by simp) ?_ ?_, Option.getD_some]
  · rw [written, List.drop_left]
    exact List.prefix_append _ _
  · rintro j before ⟨after, same⟩
    have colon : (p.text ++ ['/'])[j]? = some ':' := by
      rw [← Nat.add_zero j, ← List.getElem?_drop, ← same]
      rfl
    rw [written, List.getElem?_append_left before] at colon
    exact absurd (name.plain ':' (List.mem_of_getElem? colon)) (by decide)

/-- The last `':'` of the authority stands before the port. -/
theorem lastUpTo_colon {name : UrlPort} (port : p.port = some name) :
    lastUpTo (· == ':') (p.text ++ ['/']) p.pathStart = some p.hostEnd := by
  have ends : p.hostEnd =
    p.protoText.length + p.credentialsText.length + p.host.text.length := rfl
  have path : p.pathStart = p.hostEnd + p.portText.length := rfl
  have shape : p.portText = ':' :: name.text := by
    rw [portText, port]
    rfl
  have colon : (p.text ++ ['/'])[p.hostEnd]? = some ':' := by
    have place := getElem?_piece (p.protoText ++ p.credentialsText) p.host.text
      (name.text ++ '/' :: p.behind) ':'
    rw [text_sentinel, shape, List.cons_append, ← place, List.append_assoc, List.length_append]
    congr 1
  have clear : Clear (· == ':') (p.text ++ ['/']) (p.hostEnd + 1) (p.pathStart + 1) := by
    have free : ∀ c ∈ name.text ++ ['/'], (c == ':') = false := by
      intro c member
      by_contra isColon
      rw [Bool.not_eq_false] at isColon
      rw [eq_of_beq isColon] at member
      rcases List.mem_append.mp member with inPort | atEnd
      · exact absurd (name.inDigits ':' inPort) (by decide)
      · exact absurd atEnd (by decide)
    have piece := clear_piece (p.protoText ++ (p.credentialsText ++ (p.host.text ++ [':'])))
      p.behind free
    simp only [List.append_assoc, List.length_append, List.singleton_append,
      List.length_singleton] at piece
    rw [text_sentinel, shape]
    rw [shape, List.length_cons] at path
    exact piece.mono (by omega) (by omega)
  exact lastUpTo_eq_some.mpr ⟨by omega, hit_beq_iff.mpr colon, clear⟩

/-- The host begins behind the last `'@'`, behind the first `"://"` or at the start. -/
theorem hostBegin_atPath (hm : Sealed (p.text ++ ['/'])) :
    p.atPath.hostBegin p.pathStart = p.hostStart := by
  have fits := hm.fits
  rw [p.length_sentinel] at fits
  have starts : p.hostStart = p.protoText.length + p.credentialsText.length := rfl
  have ends : p.pathStart = p.hostStart + p.host.text.length + p.portText.length := rfl
  have authority : p.authorityStart = p.protoText.length := rfl
  rw [hostBegin, atPath, atHost, atAuthority]
  cases credentials : p.credentials with
  | some names =>
      obtain ⟨positive, lastAt⟩ := p.lastUpTo_at credentials
      obtain ⟨login, pass⟩ := names
      have longPass := List.length_pos_iff.mpr pass.nonempty
      have isSet : (SubString.between (p.authorityStart + login.text.length + 1)
          (p.authorityStart + login.text.length + 1 + pass.text.length)).isSet = true :=
        SubString.isSet_between.mpr (by omega)
      have last : (p.pathStart + npos) % 2 ^ 64 = p.pathStart - 1 := by
        rw [npos]
        omega
      simp only [Option.elim_some, isSet, if_true, last]
      rw [rfind, lastAt, Option.getD_some]
      omega
  | none =>
      have noText : p.credentialsText = [] := by
        rw [credentialsText, credentials]
        rfl
      rw [noText, List.length_nil, Nat.add_zero, ← authority] at starts
      simp only [Option.elim_none, SubString.isSet_empty, Bool.false_eq_true, if_false, starts]
      cases proto : p.proto with
      | none =>
          have start : p.authorityStart = 0 := by
            rw [authority, protoText, proto]
            rfl
          rw [start]
          rfl
      | some name =>
          have start : p.authorityStart = name.text.length + 3 := by
            rw [authority, protoText, proto, Option.elim_some, List.length_append]
            rfl
          have long := List.length_pos_iff.mpr name.nonempty
          have isSet : (SubString.between 0 (p.authorityStart - 3)).isSet = true :=
            SubString.isSet_between.mpr (by omega)
          rw [isSet, if_pos rfl, p.find_scheme proto, start]
          omega

/-- The host ends at the `':'` of the port or at the `'/'`. -/
theorem hostEnd_atPath : p.atPath.hostEnd p.pathStart = p.hostEnd := by
  have path : p.pathStart = p.hostEnd + p.portText.length := rfl
  rw [Url.hostEnd, atPath, atHost, atAuthority]
  cases port : p.port with
  | none =>
      have noText : p.portText = [] := by
        rw [portText, port]
        rfl
      simp only [Option.elim_none, SubString.isSet_empty, Bool.false_eq_true, if_false, path,
        noText, List.length_nil, Nat.add_zero]
  | some name =>
      have long := List.length_pos_iff.mpr name.nonempty
      have isSet : (SubString.between (p.hostEnd + 1) (p.hostEnd + 1 + name.text.length)).isSet =
          true := SubString.isSet_between.mpr (by omega)
      simp only [Option.elim_some, isSet, if_true]
      rw [rfind, p.lastUpTo_colon port, Option.getD_some]

/-- **The parser arrives at the ranges the parts take in the text.** -/
theorem constructs_parts (fits : p.text.length < maxSize) :
    Constructs ndebug p.text (.ok p.parsed) := by
  have hm := sealed_append fits
  have bound := hm.fits
  rw [p.length_sentinel] at bound
  have ends : p.hostEnd = p.hostStart + p.host.text.length := rfl
  have path : p.pathStart = p.hostEnd + p.portText.length := rfl
  obtain ⟨first, scan⟩ := p.ends_atAuthority ndebug (.ok p.parsed) hm
  obtain ⟨second, scanHost⟩ := p.ends_atHost ndebug (.ok p.parsed) scan
  refine first.mpr (second.mpr ((p.ends_atPath scanHost).mpr ?_))
  rw [finish, p.hostBegin_atPath hm, p.hostEnd_atPath, SubString.set_eq (by omega) (by omega)]
  have length : p.atPath.mUrl.length = p.text.length + 1 := List.length_append
  rw [length]
  rfl

section Readings

variable {p} (hm : Sealed (p.text ++ ['/']))
include hm

theorem parsed_proto : p.parsed.proto = .ok (p.proto.elim [] UrlName.text) := by
  have written := p.text_sentinel
  rw [Url.proto, parsed, authorityStart]
  rw [protoText] at written ⊢
  cases proto : p.proto with
  | none => exact SubString.str_empty (Nat.lt_trans hm.fits (by decide))
  | some name =>
      rw [proto, Option.elim_some, List.append_assoc] at written
      rw [← List.nil_append (name.text ++ _)] at written
      refine str_piece written hm.fits rfl ?_
      simp

theorem parsed_login :
    p.parsed.login = .ok (p.credentials.elim [] fun names => names.1.text) := by
  have written := p.text_sentinel
  rw [Url.login, parsed]
  rw [credentialsText] at written
  cases credentials : p.credentials with
  | none => exact SubString.str_empty (Nat.lt_trans hm.fits (by decide))
  | some names =>
      rw [credentials, Option.elim_some, List.append_assoc] at written
      exact str_piece written hm.fits rfl rfl

theorem parsed_pass :
    p.parsed.pass = .ok (p.credentials.elim [] fun names => names.2.text) := by
  have written := p.text_sentinel
  rw [Url.pass, parsed]
  rw [credentialsText] at written
  cases credentials : p.credentials with
  | none => exact SubString.str_empty (Nat.lt_trans hm.fits (by decide))
  | some names =>
      obtain ⟨login, pass⟩ := names
      have grouped : p.text ++ ['/'] = (p.protoText ++ (login.text ++ [':'])) ++ (pass.text ++
          ('@' :: (p.host.text ++ (p.portText ++ '/' :: p.behind)))) := by
        rw [written, credentials]
        simp
      refine str_piece grouped hm.fits ?_ rfl
      simp [authorityStart, Nat.add_assoc]

theorem parsed_host : p.parsed.host = .ok p.host.text := by
  have written := p.text_sentinel
  rw [← List.append_assoc] at written
  refine str_piece written hm.fits ?_ rfl
  rw [List.length_append]
  rfl

theorem parsed_port : p.parsed.port = .ok (p.port.elim [] UrlPort.text) := by
  have written := p.text_sentinel
  rw [Url.port, parsed]
  rw [portText] at written
  cases port : p.port with
  | none => exact SubString.str_empty (Nat.lt_trans hm.fits (by decide))
  | some name =>
      have grouped : p.text ++ ['/'] =
          (p.protoText ++ (p.credentialsText ++ (p.host.text ++ [':']))) ++
            (name.text ++ ('/' :: p.behind)) := by
        rw [written, port]
        simp
      refine str_piece grouped hm.fits ?_ rfl
      simp [hostEnd, hostStart, authorityStart, Nat.add_assoc]

end Readings

end UrlParts

/-- **Url recovers the authority components.** With and without assertions, a new `Url` of a text of
the form is valid and has exactly the components the text was put together from. -/
theorem url_recovers_the_parts (ndebug : Bool) (p : UrlParts) (fits : p.text.length < maxSize) :
    ∃ u, Constructs ndebug p.text (.ok u) ∧ u.isValid = true ∧
      u.proto = .ok (p.proto.elim [] UrlName.text) ∧
      u.login = .ok (p.credentials.elim [] fun names => names.1.text) ∧
      u.pass = .ok (p.credentials.elim [] fun names => names.2.text) ∧
      u.host = .ok p.host.text ∧
      u.port = .ok (p.port.elim [] UrlPort.text) := by
  have hm := sealed_append fits
  exact ⟨p.parsed, p.constructs_parts fits, rfl, UrlParts.parsed_proto hm, UrlParts.parsed_login hm,
    UrlParts.parsed_pass hm, UrlParts.parsed_host hm, UrlParts.parsed_port hm⟩

/-- `http://joe:12@host:80/a@b:c`. -/
def joesParts : UrlParts where
  proto := some ⟨['h', 't', 't', 'p'], by decide, by simp⟩
  credentials := some (⟨['j', 'o', 'e'], by decide, by simp⟩, ⟨['1', '2'], by decide, by simp⟩)
  host := ⟨['h', 'o', 's', 't'], by decide, by simp⟩
  port := some ⟨['8', '0'], by decide, by simp [digits]⟩
  tail := some ['a', '@', 'b', ':', 'c']

theorem url_recovers_the_parts_joe : joesParts.text.length < maxSize ∧
    ∃ u, Constructs false joesParts.text (.ok u) ∧ u.isValid = true ∧
      u.proto = .ok ['h', 't', 't', 'p'] ∧ u.login = .ok ['j', 'o', 'e'] ∧
      u.pass = .ok ['1', '2'] ∧ u.host = .ok ['h', 'o', 's', 't'] ∧ u.port = .ok ['8', '0'] :=
  ⟨by decide, url_recovers_the_parts false joesParts (by decide)⟩

/-! ## What the parser accepts -/

/-- The text has the form of a URL. -/
def HasForm (url : List Char) : Prop := ∃ p : UrlParts, url = p.text

/-- The parser ends normally, with assertions and without, and a valid object comes from a text of
the form. -/
structure RejectsInsteadOfFailing (url : List Char) : Prop where
  asserting : ∃ u, Constructs false url (.ok u)
  released : ∃ u, Constructs true url (.ok u)
  form : ∀ ndebug u, Constructs ndebug url (.ok u) → u.isValid = true → HasForm url

/-- **The parser rejects instead of failing exactly on the texts it has nothing to reject in.** -/
theorem rejects_iff_hasForm (url : List Char) (fits : url.length < maxSize) :
    RejectsInsteadOfFailing url ↔ HasForm url := by
  constructor
  · intro rejects
    obtain ⟨u, made⟩ := rejects.asserting
    exact rejects.form false u made (sets_keeps fits made).2
  · rintro ⟨p, rfl⟩
    exact ⟨⟨p.parsed, p.constructs_parts fits⟩, ⟨p.parsed, p.constructs_parts fits⟩,
      fun _ _ _ _ => ⟨p, rfl⟩⟩

theorem rejects_iff_hasForm_joe : joesParts.text.length < maxSize ∧
    RejectsInsteadOfFailing joesParts.text :=
  ⟨by decide, (rejects_iff_hasForm joesParts.text (by decide)).mpr ⟨joesParts, rfl⟩⟩

section AtSign

variable {rest : List Char}

theorem nextDelimiter_at : nextDelimiter ('@' :: rest ++ ['/']) 0 = some 0 :=
  nextDelimiter_eq_some.mpr ⟨Nat.le_refl 0, .inr (.inr rfl), clear_of_le (Nat.le_refl 0)⟩

/-- An `'@'` in front fails the assertion. -/
theorem constructs_at (rest : List Char) (fits : ('@' :: rest).length < maxSize) :
    Constructs false ('@' :: rest) (.error .assertion) :=
  (ends_of_refused_at (u := { mUrl := '@' :: rest ++ ['/'] }) (sealed_append fits)
    nextDelimiter_at rfl (.inr rfl)).mpr rfl

/-- Without assertions the loop does not get past it. -/
theorem not_constructs_at (fits : ('@' :: rest).length < maxSize)
    {result : Except StringFault Url} : ¬Constructs true ('@' :: rest) result := by
  refine not_ends_of_trap (fun state => state = ({ mUrl := '@' :: rest ++ ['/'] }, 0)) ?_ rfl
  rintro state rfl
  refine ⟨_, ?_, rfl⟩
  rw [body_eq (sealed_append fits) nextDelimiter_at]
  rfl

end AtSign

/-- A lone `'@'` is not rejected, and neither is the empty text, which makes a valid `Url`. -/
theorem at_is_not_rejected :
    ¬RejectsInsteadOfFailing ['@'] ∧ ¬RejectsInsteadOfFailing [] := by
  constructor
  · intro rejects
    obtain ⟨u, made⟩ := rejects.asserting
    have failed := sets_unique made (constructs_at [] (by decide))
    cases failed
  · intro rejects
    obtain ⟨u, made⟩ := rejects.asserting
    obtain ⟨p, empty⟩ := rejects.form false u made (sets_keeps (by decide) made).2
    have length := congrArg List.length empty
    have long := List.length_pos_iff.mpr p.host.nonempty
    simp only [UrlParts.text, List.length_append, List.length_nil] at length
    omega

end Jasl
