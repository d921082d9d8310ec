import Jasl.Common.Url

/-!
# The rounds of the parser of URLs

The delimiters of a text and the segments they are met in. A segment begins at the
start of the text or behind a `"://"`, and the protocol is what lies before the first
segment with text before it; until then a `"://"` begins a new segment. Where no
protocol is left over from another text, the state of the parser agrees with the
segment (`Scanning`), and each round is one of a few (`ends_of_scheme` and the like).
-/

set_option autoImplicit false

namespace Jasl

open Library StdString

namespace Url

/-! ## Delimiters and segments -/

/-- A text with the sentinel of `parse` at its end. -/
structure Sealed (m : List Char) : Prop where
  fits : m.length < 2 ^ 63
  sentinel : m[m.length - 1]? = some '/'

/-- A `"://"` begins at this index. -/
def SchemeAt (m : List Char) (i : ℕ) : Prop :=
  m[i]? = some ':' ∧ m[i + 1]? = some '/' ∧ m[i + 2]? = some '/'

instance (m : List Char) (i : ℕ) : Decidable (SchemeAt m i) :=
  inferInstanceAs (Decidable (_ ∧ _ ∧ _))

/-- Between a `':'` and the `'/'` at `n` there are digits, and at least one. -/
def PortAt (m : List Char) (i n : ℕ) : Prop :=
  i + 1 < n ∧ m[n]? = some '/' ∧ Clear (fun c => !digits.contains c) m (i + 1) n

/-- The first delimiter from an index on. -/
def nextDelimiter (m : List Char) (k : ℕ) : Option ℕ :=
  firstFrom (fun c => [':', '/', '@'].contains c) m k

/-- A segment begins at the start or behind a `"://"`. -/
def SegmentStart (m : List Char) (b : ℕ) : Prop := b = 0 ∨ 3 ≤ b ∧ SchemeAt m (b - 3)

/-- In the segment from `b` on, the `"://"` at `i` ends a protocol: there is none yet. -/
def EndsProto (m : List Char) (b i : ℕ) : Prop := b ≤ 3 ∧ SchemeAt m i

section Text

variable {m : List Char} {b k i n : ℕ}

theorem SchemeAt.lt_length (scheme : SchemeAt m i) : i + 2 < m.length :=
  (List.getElem?_eq_some_iff.mp scheme.2.2).1

theorem scheme_prefix_iff : [':', '/', '/'] <+: m.drop i ↔ SchemeAt m i := by
  rw [SchemeAt]
  constructor
  · rintro ⟨rest, same⟩
    have at_ : ∀ j, m[i + j]? = ([':', '/', '/'] ++ rest)[j]? := fun j => by
      rw [same, List.getElem?_drop]
    exact ⟨at_ 0, at_ 1, at_ 2⟩
  · rintro ⟨first, second, third⟩
    obtain ⟨bound, last⟩ := List.getElem?_eq_some_iff.mp third
    rw [List.getElem?_eq_getElem (by omega)] at first second
    refine ⟨m.drop (i + 3), ?_⟩
    rw [List.drop_eq_getElem_cons (by omega : i < m.length),
      List.drop_eq_getElem_cons (by omega : i + 1 < m.length), List.drop_eq_getElem_cons bound,
      Option.some.inj first, Option.some.inj second, last]
    rfl

theorem PortAt.lt_length (port : PortAt m i n) : n < m.length :=
  (List.getElem?_eq_some_iff.mp port.2.1).1

theorem PortAt.le (port : PortAt m i n) : i + 1 ≤ n := Nat.le_of_lt port.1

theorem not_digit_slash : (!digits.contains '/') = true := by decide

/-- A port ends at the first character that is not a digit. -/
theorem PortAt.first (port : PortAt m i n) :
    firstFrom (fun c => !digits.contains c) m (i + 1) = some n :=
  firstFrom_eq_some.mpr ⟨port.le, ⟨'/', port.2.1, not_digit_slash⟩, port.2.2⟩

theorem PortAt.unique {other : ℕ} (port : PortAt m i n) (again : PortAt m i other) : n = other :=
  Option.some.inj (port.first.symm.trans again.first)

theorem nextDelimiter_eq_some :
    nextDelimiter m k = some i ↔ k ≤ i ∧ (m[i]? = some ':' ∨ m[i]? = some '/' ∨ m[i]? = some '@') ∧
      Clear (fun c => [':', '/', '@'].contains c) m k i := by
  have hit : Hit (fun c => [':', '/', '@'].contains c) m i ↔
      m[i]? = some ':' ∨ m[i]? = some '/' ∨ m[i]? = some '@' := by
    cases here : m[i]? with
    | none => simp [Hit, here]
    | some c => simp [hit_iff_of_getElem? here]
  rw [nextDelimiter, firstFrom_eq_some, hit]

/-- There is no `'/'` before the next delimiter. -/
theorem clear_slash_of_nextDelimiter (found : nextDelimiter m k = some i) :
    Clear (· == '/') m k i := by
  refine (nextDelimiter_eq_some.mp found).2.2.of_imp fun c isSlash => ?_
  rw [eq_of_beq isSlash]
  decide

/-- The digits of a port hide no delimiter: behind its `':'` comes the `'/'`. -/
theorem PortAt.nextDelimiter (port : PortAt m i n) : nextDelimiter m (i + 1) = some n := by
  refine nextDelimiter_eq_some.mpr ⟨port.le, .inr (.inl port.2.1), ?_⟩
  refine port.2.2.of_imp fun c isDelimiter => ?_
  simp only [List.contains_eq_mem, List.mem_cons, List.not_mem_nil, or_false,
    decide_eq_true_eq] at isDelimiter
  rcases isDelimiter with rfl | rfl | rfl <;> decide

theorem Sealed.exists_delimiter (hm : Sealed m) (inside : k < m.length) :
    ∃ i, nextDelimiter m k = some i := by
  have hit : Hit (fun c => [':', '/', '@'].contains c) m (m.length - 1) :=
    ⟨'/', hm.sentinel, by decide⟩
  obtain ⟨i, found, _⟩ := exists_firstFrom (by omega : k ≤ m.length - 1) hit
  exact ⟨i, found⟩

/-- Behind a `':'` there is a character that is not a digit. -/
theorem Sealed.exists_not_digit (hm : Sealed m) (colon : m[i]? = some ':') :
    ∃ n, firstFrom (fun c => !digits.contains c) m (i + 1) = some n := by
  have inside := (List.getElem?_eq_some_iff.mp colon).1
  have before : i ≠ m.length - 1 := by
    rintro rfl
    rw [hm.sentinel] at colon
    cases colon
  have hit : Hit (fun c => !digits.contains c) m (m.length - 1) :=
    ⟨'/', hm.sentinel, not_digit_slash⟩
  obtain ⟨n, found, _⟩ := exists_firstFrom (by omega : i + 1 ≤ m.length - 1) hit
  exact ⟨n, found⟩

theorem sealed_append {url : List Char} (fits : url.length < maxSize) : Sealed (url ++ ['/']) where
  fits := by
    rw [maxSize] at fits
    rw [List.length_append, List.length_singleton]
    omega
  sentinel := by simp

end Text

/-! ## The fill functions -/

section Fill

variable {ndebug : Bool} {u : Url} {b k i n : ℕ}

theorem fillProto_accepts (hm : Sealed u.mUrl) (unset : u.mProto.isSet = false)
    (scheme : SchemeAt u.mUrl i) :
    fillProto ndebug u i = .ok (some ({ u with mProto := .between 0 i }, i + 3)) := by
  have inside := scheme.lt_length
  have fits := hm.fits
  have sum : (i + 2) % 2 ^ 64 = i + 2 := by omega
  have current : u.mUrl[i]? = some ':' ∧ u.mUrl[i + 1]? = some '/' ∧ u.mUrl[i + 2]? = some '/' :=
    scheme
  rw [fillProto, unset, if_neg Bool.false_ne_true, sum, if_neg (by omega), if_pos current,
    SubString.set_eq (Nat.zero_le i) (by omega)]
  rfl

theorem fillProto_refuses (refused : u.mProto.isSet = true ∨ ¬SchemeAt u.mUrl i) :
    fillProto ndebug u i = .ok none := by
  rw [fillProto]
  rcases refused with isSet | other
  · rw [if_pos isSet]
  · have current : ¬(u.mUrl[i]? = some ':' ∧ u.mUrl[i + 1]? = some '/' ∧
        u.mUrl[i + 2]? = some '/') := other
    simp only [if_neg current, ite_self]

theorem fillPort_accepts (hm : Sealed u.mUrl) (unset : u.mPort.isSet = false)
    (port : PortAt u.mUrl i n) :
    fillPort ndebug u i =
      (fillHost ndebug { u with mPort := .between (i + 1) n } n).map fun u => some (u, n) := by
  have inside := port.lt_length
  have fits := hm.fits
  have behind := port.1
  have found : findFirstNotOf u.mUrl digits (i + 1) = n := by
    rw [findFirstNotOf, port.first, Option.getD_some]
  have somewhere : n ≠ npos := by
    rw [npos]
    omega
  simp only [fillPort, unset, found, somewhere, port.2.1, Bool.false_eq_true, if_false, false_or,
    true_and, if_pos (by omega : 1 < n - i), SubString.set_eq port.le (by omega : n < 2 ^ 64)]
  rfl

theorem fillPort_refuses (hm : Sealed u.mUrl) (colon : u.mUrl[i]? = some ':')
    (refused : u.mPort.isSet = true ∨ ∀ n, ¬PortAt u.mUrl i n) :
    fillPort ndebug u i = .ok none := by
  rcases refused with isSet | other
  · rw [fillPort, if_pos isSet]
  · obtain ⟨n, first⟩ := hm.exists_not_digit colon
    obtain ⟨behind, hit, clear⟩ := firstFrom_eq_some.mp first
    have inside := hit.lt_length
    have fits := hm.fits
    have found : findFirstNotOf u.mUrl digits (i + 1) = n := by
      rw [findFirstNotOf, first, Option.getD_some]
    have somewhere : n ≠ npos := by
      rw [npos]
      omega
    have none_here : ¬(u.mUrl[n]? = some '/' ∧ 1 < n - i) := fun ⟨slash, long⟩ =>
      other n ⟨by omega, slash, clear⟩
    simp only [fillPort, found, somewhere, false_or, if_neg none_here, ite_self]

/-- A port that is accepted ends at a `'/'`, where the next round begins. -/
theorem portAt_of_fillPort (hm : Sealed u.mUrl) (colon : u.mUrl[i]? = some ':') {next : Url}
    (accepted : fillPort ndebug u i = .ok (some (next, k))) : PortAt u.mUrl i k := by
  by_cases begins : u.mPort.isSet = false ∧ ∃ n, PortAt u.mUrl i n
  · obtain ⟨unset, n, portAt⟩ := begins
    rw [fillPort_accepts hm unset portAt] at accepted
    cases filled : fillHost ndebug { u with mPort := .between (i + 1) n } n with
    | error fault =>
        rw [filled] at accepted
        cases accepted
    | ok range =>
        rw [filled] at accepted
        cases accepted
        exact portAt
  · rw [not_and_or, Bool.not_eq_false, not_exists] at begins
    rw [fillPort_refuses hm colon begins] at accepted
    cases accepted

theorem fillLogin_accepts (hm : Sealed u.mUrl) (unset : u.mLogin.isSet = false)
    (segment : SegmentStart u.mUrl b) (start_le : b ≤ i) (inside : i < u.mUrl.length)
    (clear : Clear (· == '/') u.mUrl b (i + 1)) :
    fillLogin ndebug u i = .ok (some ({ u with mLogin := .between b i }, i + 1)) := by
  have fits := hm.fits
  rcases segment with rfl | ⟨long, _, second, third⟩
  · have notFound : rfind u.mUrl '/' i = npos := by
      rw [rfind, lastUpTo_eq_none.mpr clear, Option.getD_none]
    simp only [fillLogin, unset, notFound, Bool.false_eq_true, if_false, if_true,
      SubString.set_eq (Nat.zero_le i) (by omega : i < 2 ^ 64)]
    rfl
  · rw [show b - 3 + 2 = b - 1 by omega] at third
    have slash : Hit (· == '/') u.mUrl (b - 1) := ⟨'/', third, rfl⟩
    have found : rfind u.mUrl '/' i = b - 1 := by
      rw [rfind, lastUpTo_eq_some.mpr ⟨by omega, slash, ?_⟩, Option.getD_some]
      rwa [show b - 1 + 1 = b by omega]
    have somewhere : b - 1 ≠ npos := by
      rw [npos]
      omega
    have before : (b - 1 + npos) % 2 ^ 64 = b - 3 + 1 := by
      rw [npos]
      omega
    simp only [fillLogin, unset, found, somewhere, before, second, Bool.false_eq_true, if_false,
      if_true, show b - 1 + 1 = b by omega, SubString.set_eq start_le (by omega : i < 2 ^ 64)]
    rfl

theorem fillLogin_refuses (isSet : u.mLogin.isSet = true) : fillLogin ndebug u i = .ok none := by
  rw [fillLogin, if_pos isSet]

theorem fillPass_accepts {c : ℕ} (hm : Sealed u.mUrl) (unset : u.mPass.isSet = false)
    (isSet : u.mLogin.isSet = true) (positive : 0 < i) (inside : i < u.mUrl.length)
    (colon : lastUpTo (· == ':') u.mUrl (i - 1) = some c) :
    fillPass ndebug u i = .ok (some ({ u with mPass := .between (c + 1) i }, i + 1)) := by
  have fits := hm.fits
  have c_le := (lastUpTo_eq_some.mp colon).1
  have before : (i + npos) % 2 ^ 64 = i - 1 := by
    rw [npos]
    omega
  have found : rfind u.mUrl ':' (i - 1) = c := by
    rw [rfind, colon, Option.getD_some]
  have behind : (c + 1) % 2 ^ 64 = c + 1 := by omega
  simp only [fillPass, unset, isSet, before, found, behind, Bool.not_true, Bool.false_eq_true,
    if_false, SubString.set_eq (by omega : c + 1 ≤ i) (by omega : i < 2 ^ 64)]
  rfl

theorem fillPass_refuses (refused : u.mPass.isSet = true ∨ u.mLogin.isSet = false) :
    fillPass ndebug u i = .ok none := by
  rw [fillPass]
  rcases refused with isSet | unset
  · rw [if_pos isSet]
  · simp [unset]

/-! What they change, however they accept. -/

/-- What holds of the object and the offset when a fill function accepts. -/
def Accepts (filled : Filled) (holds : Url × ℕ → Prop) : Prop :=
  ∀ next, filled = .ok (some next) → holds next

theorem Accepts.mono {filled : Filled} {holds other : Url × ℕ → Prop}
    (accepts : Accepts filled holds) (weaker : ∀ next, holds next → other next) : Accepts filled other :=
  fun next accepted => weaker next (accepts next accepted)

theorem accepts_none {holds : Url × ℕ → Prop} : Accepts (.ok none) holds := by
  intro next accepted
  cases accepted

theorem accepts_error {holds : Url × ℕ → Prop} {fault : StringFault} :
    Accepts (.error fault) holds := by
  intro next accepted
  cases accepted

theorem accepts_map {α : Type} {holds : Url × ℕ → Prop} {range : Except StringFault α}
    {after : α → Url × ℕ} (each : ∀ value, range = .ok value → holds (after value)) :
    Accepts (range.map fun value => some (after value)) holds := by
  intro next accepted
  cases set : range with
  | error fault =>
      rw [set] at accepted
      cases accepted
  | ok value =>
      rw [set] at accepted
      cases accepted
      exact each value set

theorem fillProto_changes : Accepts (fillProto ndebug u i) fun next => next.1.mUrl = u.mUrl := by
  rw [fillProto]
  split_ifs
  · exact accepts_none
  · exact accepts_none
  · exact accepts_map fun _ _ => rfl
  · exact accepts_none

theorem fillHost_changes {after : Url} (filled : fillHost ndebug u i = .ok after) :
    after.mUrl = u.mUrl ∧ after.mProto = u.mProto := by
  rw [fillHost] at filled
  cases host : SubString.set ndebug (u.hostBegin i) (u.hostEnd i) with
  | error fault =>
      rw [host] at filled
      cases filled
  | ok range =>
      rw [host] at filled
      cases filled
      exact ⟨rfl, rfl⟩

theorem fillPort_changes : Accepts (fillPort ndebug u i) fun next =>
    next.1.mUrl = u.mUrl ∧ next.1.mProto = u.mProto := by
  rw [fillPort]
  dsimp only
  generalize findFirstNotOf u.mUrl digits (i + 1) = notADigit
  generalize (if notADigit = npos then u.mUrl.length else notADigit) = portEnd
  by_cases isSet : u.mPort.isSet = true
  · rw [if_pos isSet]
    exact accepts_none
  rw [if_neg isSet]
  split
  · cases port : SubString.set ndebug (i + 1) portEnd with
    | error fault => exact accepts_error
    | ok range =>
        exact accepts_map fun _ filled => fillHost_changes (u := { u with mPort := range }) filled
  · exact accepts_none

theorem fillLogin_changes : Accepts (fillLogin ndebug u i) fun next =>
    next.1.mUrl = u.mUrl ∧ next.1.mProto = u.mProto ∧ next.2 = i + 1 := by
  rw [fillLogin]
  dsimp only
  split_ifs
  · exact accepts_none
  · exact accepts_map fun _ _ => ⟨rfl, rfl, rfl⟩
  · split
    · exact accepts_error
    · split_ifs
      · exact accepts_map fun _ _ => ⟨rfl, rfl, rfl⟩
      · exact accepts_none

theorem fillPass_changes : Accepts (fillPass ndebug u i) fun next =>
    next.1.mUrl = u.mUrl ∧ next.1.mProto = u.mProto ∧ next.2 = i + 1 := by
  rw [fillPass]
  dsimp only
  split_ifs
  · exact accepts_none
  · exact accepts_none
  · exact accepts_map fun _ _ => ⟨rfl, rfl, rfl⟩

theorem fillTail_changes : Accepts (fillTail ndebug u i) fun next => next.1.mUrl = u.mUrl := by
  rw [fillTail]
  cases filled : fillHost ndebug u i with
  | error fault => exact accepts_error
  | ok after => exact accepts_map fun _ _ => (fillHost_changes filled).1

/-- What the `'/'` that ends the parsing leaves. -/
def finish (ndebug : Bool) (u : Url) (i : ℕ) : Except StringFault Url :=
  (SubString.set ndebug (u.hostBegin i) (u.hostEnd i)).map fun host =>
    { u with mHost := host, mTail := .between (i + 1) u.mUrl.length, mValid := true }

theorem finish_keeps {after : Url} (done : finish ndebug u i = .ok after) :
    after.mUrl = u.mUrl ∧ after.mProto = u.mProto ∧ after.mLogin = u.mLogin ∧
      after.mPass = u.mPass ∧ after.mTail = .between (i + 1) u.mUrl.length := by
  rw [finish] at done
  cases set : SubString.set ndebug (u.hostBegin i) (u.hostEnd i) with
  | error fault =>
      rw [set] at done
      cases done
  | ok range =>
      rw [set] at done
      cases done
      exact ⟨rfl, rfl, rfl, rfl, rfl⟩

theorem caseSlash_eq (hm : Sealed u.mUrl) (inside : i < u.mUrl.length) :
    caseSlash ndebug u i = .inr (finish ndebug u i) := by
  have fits := hm.fits
  rw [caseSlash, fillTail, fillHost, finish]
  cases SubString.set ndebug (u.hostBegin i) (u.hostEnd i) with
  | error fault => rfl
  | ok host =>
      simp only [Except.map, Except.bind,
        SubString.set_eq (by omega : i + 1 ≤ u.mUrl.length) (by omega : u.mUrl.length < 2 ^ 64)]

end Fill

/-! ## Rounds -/

/-- The parser between two rounds, before a port is met: it is at `k` in the segment from `b` on,
and the protocol lies before that segment. -/
structure Scanning (u : Url) (b k : ℕ) : Prop where
  isSealed : Sealed u.mUrl
  start_le : b ≤ k
  segment : SegmentStart u.mUrl b
  clear : Clear (· == '/') u.mUrl b k
  proto_eq : u.mProto = .between 0 (b - 3)

theorem scanning_start {u : Url} (hm : Sealed u.mUrl) (unset : u.mProto = {}) : Scanning u 0 0 where
  isSealed := hm
  start_le := Nat.le_refl 0
  segment := .inl rfl
  clear := clear_of_le (Nat.le_refl 0)
  proto_eq := unset

theorem Scanning.congr {s t : Url} {b k : ℕ} (scan : Scanning t b k) (sameUrl : s.mUrl = t.mUrl)
    (sameProto : s.mProto = t.mProto) : Scanning s b k where
  isSealed := sameUrl ▸ scan.isSealed
  start_le := scan.start_le
  segment := sameUrl ▸ scan.segment
  clear := sameUrl ▸ scan.clear
  proto_eq := sameProto.trans scan.proto_eq

theorem tried_eq_inr {filled : Filled} {otherwise : Round} {after : Url}
    (done : tried filled otherwise = .inr (.ok after)) :
    filled = .ok none ∧ otherwise = .inr (.ok after) := by
  rcases filled with fault | _ | next
  · cases done
  · exact ⟨rfl, done⟩
  · cases done

theorem tried_eq_inl {filled : Filled} {otherwise : Round} {next : Url × ℕ}
    (again : tried filled otherwise = .inl next) :
    filled = .ok (some next) ∨ filled = .ok none ∧ otherwise = .inl next := by
  rcases filled with fault | _ | accepted
  · cases again
  · exact .inr ⟨rfl, again⟩
  · cases again
    exact .inl rfl

section Rounds

variable {ndebug : Bool} {u : Url} {b k i n : ℕ} {result : Except StringFault Url}

theorem body_eq (hm : Sealed u.mUrl) (found : nextDelimiter u.mUrl k = some i) :
    body ndebug (u, k) =
      if u.mUrl[i]? = some ':' then u.caseColon ndebug i
      else if u.mUrl[i]? = some '/' then u.caseSlash ndebug i
      else if u.mUrl[i]? = some '@' then u.caseAt ndebug i
      else u.caseDefault ndebug i := by
  obtain ⟨k_le, delimiter, _⟩ := nextDelimiter_eq_some.mp found
  have inside : i < u.mUrl.length := by
    rcases delimiter with here | here | here <;> exact (List.getElem?_eq_some_iff.mp here).1
  have fits := hm.fits
  have first : findFirstOf u.mUrl [':', '/', '@'] k = i := by
    rw [findFirstOf, ← nextDelimiter, found, Option.getD_some]
  have somewhere : i ≠ npos := by
    rw [npos]
    omega
  simp only [body, if_pos (by omega : k < u.mUrl.length), first, if_neg somewhere]

theorem ends_of_end (outside : u.mUrl.length ≤ k) :
    Ends (body ndebug) (u, k) result ↔ .ok { u with mValid := true } = result :=
  ends_of_inr (if_neg (Nat.not_lt.mpr outside))

theorem ends_of_slash (hm : Sealed u.mUrl) (found : nextDelimiter u.mUrl k = some i)
    (slash : u.mUrl[i]? = some '/') :
    Ends (body ndebug) (u, k) result ↔ finish ndebug u i = result := by
  apply ends_of_inr
  rw [body_eq hm found, slash, if_neg (by decide), if_pos rfl,
    caseSlash_eq hm (List.getElem?_eq_some_iff.mp slash).1]

namespace Scanning

theorem proto_isSet (scan : Scanning u b k) : u.mProto.isSet = true ↔ 3 < b := by
  rw [scan.proto_eq, SubString.isSet_between]
  omega

theorem clear_next (scan : Scanning u b k) (found : nextDelimiter u.mUrl k = some i) :
    Clear (· == '/') u.mUrl b i :=
  scan.clear.append (clear_slash_of_nextDelimiter found)

theorem next (scan : Scanning u b k) {after : Url} (sameUrl : after.mUrl = u.mUrl)
    (sameProto : after.mProto = u.mProto) (found : nextDelimiter u.mUrl k = some i)
    (noSlash : u.mUrl[i]? ≠ some '/') : Scanning after b (i + 1) where
  isSealed := sameUrl ▸ scan.isSealed
  start_le := by
    have behind := scan.start_le
    have ahead := (nextDelimiter_eq_some.mp found).1
    omega
  segment := sameUrl ▸ scan.segment
  clear := by
    rw [sameUrl]
    exact (scan.clear_next found).snoc fun hit => noSlash (hit_beq_iff.mp hit)
  proto_eq := sameProto.trans scan.proto_eq

theorem next_segment (scan : Scanning u b k) (ends : EndsProto u.mUrl b i) :
    Scanning { u with mProto := .between 0 i } (i + 3) (i + 3) where
  isSealed := scan.isSealed
  start_le := Nat.le_refl _
  segment := .inr ⟨by omega, ends.2⟩
  clear := clear_of_le (Nat.le_refl _)
  proto_eq := rfl

theorem fillProto_refuses (scan : Scanning u b k) (refused : ¬EndsProto u.mUrl b i) :
    fillProto ndebug u i = .ok none := by
  apply Url.fillProto_refuses
  by_cases first : b ≤ 3
  · exact .inr fun scheme => refused ⟨first, scheme⟩
  · exact .inl (scan.proto_isSet.mpr (by omega))

/-- A `"://"` that ends a protocol begins a new segment. -/
theorem ends_of_scheme (scan : Scanning u b k) (found : nextDelimiter u.mUrl k = some i)
    (ends : EndsProto u.mUrl b i) :
    Ends (body ndebug) (u, k) result ↔
      Ends (body ndebug) ({ u with mProto := .between 0 i }, i + 3) result := by
  have unset : u.mProto.isSet = false := by
    rw [← Bool.not_eq_true, scan.proto_isSet]
    have early := ends.1
    omega
  apply ends_of_inl
  rw [body_eq scan.isSealed found, if_pos ends.2.1, caseColon,
    fillProto_accepts scan.isSealed unset ends.2]
  rfl

/-- A port ends the parsing: the `'/'` behind it is the next delimiter. -/
theorem ends_of_port (scan : Scanning u b k) (found : nextDelimiter u.mUrl k = some i)
    (colon : u.mUrl[i]? = some ':') (inName : ¬EndsProto u.mUrl b i)
    (unset : u.mPort.isSet = false) (port : PortAt u.mUrl i n) :
    Ends (body ndebug) (u, k) result ↔
      finish ndebug { u with mPort := .between (i + 1) n } n = result := by
  have slash : nextDelimiter u.mUrl n = some n :=
    nextDelimiter_eq_some.mpr ⟨Nat.le_refl n, .inr (.inl port.2.1), clear_of_le (Nat.le_refl n)⟩
  have turn : body ndebug (u, k) =
      tried ((fillHost ndebug { u with mPort := .between (i + 1) n } n).map fun u => some (u, n))
        (tried (u.fillLogin ndebug i) (assertFalse ndebug (u.caseSlash ndebug i))) := by
    rw [body_eq scan.isSealed found, if_pos colon, caseColon, scan.fillProto_refuses inName,
      fillPort_accepts scan.isSealed unset port]
    rfl
  cases filled : SubString.set ndebug (hostBegin { u with mPort := .between (i + 1) n } n)
      (hostEnd { u with mPort := .between (i + 1) n } n) with
  | error fault =>
      rw [fillHost, filled] at turn
      rw [ends_of_inr turn, finish, filled]
      rfl
  | ok host =>
      rw [fillHost, filled] at turn
      rw [ends_of_inl turn]
      have again : Ends (body ndebug)
          ({ u with mPort := .between (i + 1) n, mHost := host }, n) result ↔ _ :=
        ends_of_slash scan.isSealed slash port.2.1
      rw [again]
      rfl

/-- A `':'` in a name ends the login, which goes back to the begin of the segment. -/
theorem ends_of_login (scan : Scanning u b k) (found : nextDelimiter u.mUrl k = some i)
    (colon : u.mUrl[i]? = some ':') (inName : ¬EndsProto u.mUrl b i)
    (noPort : u.mPort.isSet = true ∨ ∀ n, ¬PortAt u.mUrl i n) (unset : u.mLogin.isSet = false) :
    Ends (body ndebug) (u, k) result ↔
      Ends (body ndebug) ({ u with mLogin := .between b i }, i + 1) result := by
  have ahead := (nextDelimiter_eq_some.mp found).1
  have behind := scan.start_le
  have noSlash : ¬Hit (· == '/') u.mUrl i := by
    rw [hit_beq_iff, colon]
    decide
  apply ends_of_inl
  rw [body_eq scan.isSealed found, if_pos colon, caseColon, scan.fillProto_refuses inName,
    fillPort_refuses scan.isSealed colon noPort,
    fillLogin_accepts scan.isSealed unset scan.segment (by omega)
      (List.getElem?_eq_some_iff.mp colon).1 ((scan.clear_next found).snoc noSlash)]
  rfl

/-- A further `':'` is refused once there is a login. -/
theorem ends_of_refused_colon (scan : Scanning u b k) (found : nextDelimiter u.mUrl k = some i)
    (colon : u.mUrl[i]? = some ':') (inName : ¬EndsProto u.mUrl b i)
    (noPort : u.mPort.isSet = true ∨ ∀ n, ¬PortAt u.mUrl i n) (isSet : u.mLogin.isSet = true) :
    Ends (body false) (u, k) result ↔ .error .assertion = result := by
  apply ends_of_inr
  rw [body_eq scan.isSealed found, if_pos colon, caseColon, scan.fillProto_refuses inName,
    fillPort_refuses scan.isSealed colon noPort, fillLogin_refuses isSet]
  rfl

end Scanning

/-- An `'@'` ends the password, which goes back to the last `':'`. -/
theorem ends_of_at {c : ℕ} (hm : Sealed u.mUrl) (found : nextDelimiter u.mUrl k = some i)
    (at_ : u.mUrl[i]? = some '@') (unset : u.mPass.isSet = false) (isSet : u.mLogin.isSet = true)
    (positive : 0 < i) (colon : lastUpTo (· == ':') u.mUrl (i - 1) = some c) :
    Ends (body ndebug) (u, k) result ↔
      Ends (body ndebug) ({ u with mPass := .between (c + 1) i }, i + 1) result := by
  apply ends_of_inl
  rw [body_eq hm found, at_, if_neg (by decide), if_neg (by decide), if_pos rfl, caseAt,
    fillPass_accepts hm unset isSet positive (List.getElem?_eq_some_iff.mp at_).1 colon]
  rfl

/-- An `'@'` is refused without a login or behind another one. -/
theorem ends_of_refused_at (hm : Sealed u.mUrl) (found : nextDelimiter u.mUrl k = some i)
    (at_ : u.mUrl[i]? = some '@') (refused : u.mPass.isSet = true ∨ u.mLogin.isSet = false) :
    Ends (body false) (u, k) result ↔ .error .assertion = result := by
  apply ends_of_inr
  rw [body_eq hm found, at_, if_neg (by decide), if_neg (by decide), if_pos rfl, caseAt,
    fillPass_refuses refused]
  rfl

end Rounds

/-! ## What every parse keeps -/

/-- A round leaves the text alone, and the loop ends with a valid object. -/
def KeepsText (m : List Char) : Round → Prop
  | .inl next => next.1.mUrl = m
  | .inr (.ok u) => u.mUrl = m ∧ u.mValid = true
  | .inr (.error _) => True

section Keeps

variable {ndebug : Bool} {u : Url} {k i : ℕ} {m : List Char}

theorem keepsText_tried {filled : Filled} {otherwise : Round}
    (accepted : Accepts filled fun next => next.1.mUrl = m) (refused : KeepsText m otherwise) :
    KeepsText m (tried filled otherwise) := by
  rcases filled with fault | _ | next
  · trivial
  · exact refused
  · exact accepted next rfl

theorem keepsText_assertFalse {next : Round} (after : KeepsText m next) :
    KeepsText m (assertFalse ndebug next) := by
  cases ndebug with
  | false => trivial
  | true => exact after

theorem keepsText_caseDefault : KeepsText u.mUrl (u.caseDefault ndebug i) :=
  keepsText_assertFalse rfl

theorem keepsText_caseAt : KeepsText u.mUrl (u.caseAt ndebug i) :=
  keepsText_tried (fillPass_changes.mono fun _ => And.left)
    (keepsText_assertFalse keepsText_caseDefault)

theorem keepsText_caseSlash : KeepsText u.mUrl (u.caseSlash ndebug i) := by
  rw [caseSlash]
  rcases filled : fillTail ndebug u i with fault | _ | next
  · trivial
  · exact keepsText_assertFalse keepsText_caseAt
  · exact ⟨fillTail_changes next filled, rfl⟩

theorem keepsText_caseColon : KeepsText u.mUrl (u.caseColon ndebug i) :=
  keepsText_tried fillProto_changes <|
    keepsText_tried (fillPort_changes.mono fun _ => And.left) <|
      keepsText_tried (fillLogin_changes.mono fun _ => And.left)
        (keepsText_assertFalse keepsText_caseSlash)

theorem keepsText_body (ndebug : Bool) (k : ℕ) (hm : Sealed u.mUrl) :
    KeepsText u.mUrl (body ndebug (u, k)) := by
  by_cases inside : k < u.mUrl.length
  · obtain ⟨i, found⟩ := hm.exists_delimiter inside
    rw [body_eq hm found]
    split_ifs
    · exact keepsText_caseColon
    · exact keepsText_caseSlash
    · exact keepsText_caseAt
    · exact keepsText_caseDefault
  · rw [body, if_neg inside]
    exact ⟨rfl, rfl⟩

/-- **Whatever the parser comes through is a valid URL**, whatever the object was before. -/
theorem sets_keeps {url : List Char} {after : Url} (fits : url.length < maxSize)
    (set : Sets ndebug u url (.ok after)) : after.mUrl = url ++ ['/'] ∧ after.mValid = true := by
  refine (sets_iff.mp set).induction (motive := fun state => Sealed state.1.mUrl →
    after.mUrl = state.1.mUrl ∧ after.mValid = true) ?_ ?_ (sealed_append fits)
  · rintro ⟨before, k⟩ last hm
    have kept := keepsText_body ndebug k hm
    rw [last] at kept
    exact kept
  · rintro ⟨before, k⟩ next again _ ih hm
    have kept := keepsText_body ndebug k hm
    rw [again] at kept
    change next.1.mUrl = before.mUrl at kept
    obtain ⟨url, valid⟩ := ih (kept.symm ▸ hm)
    exact ⟨url.trans kept, valid⟩

end Keeps

end Url

end Jasl
