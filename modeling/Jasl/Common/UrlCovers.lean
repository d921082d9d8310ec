import Jasl.Common.UrlAhead
import Mathlib.Data.Nat.Find

/-!
# Putting the components together again

After a parse the components of a new object can be joined as in a URL, and the text is
to be accounted for in this way, each part of it once (`AccountsFor`). Three things go
wrong. A login without a password is also read as a part of the host, which begins
behind a password or a protocol. A protocol that begins with an empty one, and a login
before a protocol or behind an empty one, are read from the start of the text. And when
the text ends with the first `'/'` of a `"://"`, the sentinel is taken for the second.

What has to be ahead in the text (`Tells`, and `Credited` once there is a login) is
passed on from round to round, and decided at the end (`accounts_for_the_text_iff`).
-/

set_option autoImplicit false

namespace Jasl

open Library StdString

namespace Url

/-! ## Joining the components -/

/-- A URL with these components. -/
def joined (proto login pass host port tail : List Char) : List Char :=
  ((if proto = [] then [] else proto ++ [':', '/', '/']) ++
    (if login = [] then [] else login ++ ':' :: (pass ++ ['@']))) ++
      (host ++ ((if port = [] then [] else ':' :: port) ++ '/' :: tail))

/-- The text is accounted for: the components that are not empty are apart and in order, and joined
they give the text. -/
structure AccountsFor (u : Url) : Prop where
  text : ∃ proto login pass host port tail, u.proto = .ok proto ∧ u.login = .ok login ∧
    u.pass = .ok pass ∧ u.host = .ok host ∧ u.port = .ok port ∧ u.tail = .ok tail ∧
    joined proto login pass host port tail = u.url
  apart : ([u.mProto, u.mLogin, u.mPass, u.mHost, u.mPort, u.mTail].filter
    SubString.isSet).Pairwise fun first second => first.mEnd ≤ second.mBegin

/-! ## What the text has to be like -/

/-- The `'@'` at `i` ends a password that is not empty. -/
def EndsPass (m : List Char) (_ i : ℕ) : Prop := m[i]? = some '@' ∧ m[i - 1]? ≠ some ':'

/-- The login of this segment is a part of the credentials: the segment is not behind an empty
protocol, no protocol ends behind the login, and a password does. -/
structure Credited (m : List Char) (b k : ℕ) : Prop where
  segment : b ≠ 3
  noProto : ¬Finds m b k (EndsProto m)
  pass : Finds m b k (EndsPass m)

/-- A login is asked for that is not empty, and it is a part of the credentials. -/
def NamesCredited (m : List Char) (b k : ℕ) : Prop :=
  Finds m b k fun a j => EndsLogin m a j ∧ a < j ∧ Credited m a (j + 1)

/-- A protocol lies behind an empty one. -/
def LateProto (m : List Char) (b k : ℕ) : Prop :=
  SchemeAt m 0 ∧ (3 < b ∨ Finds m b k fun a j => EndsProto m a j ∧ a = 3)

/-- What has to be ahead while there is no login. -/
structure Tells (m : List Char) (b k : ℕ) : Prop where
  ended : ¬StopsBehindProto m b k
  named : NamesLogin m b k → NamesCredited m b k
  unnamed : ¬NamesLogin m b k → ¬LateProto m b k

/-! ## Pieces of the text -/

section Pieces

variable {m : List Char} {i j b y w : ℕ}

/-- What a range reads. -/
def piece (m : List Char) (s : SubString) : List Char := (m.drop s.mBegin).take s.mLength

@[simp] theorem piece_empty : piece m {} = [] := rfl

theorem piece_between (first last : ℕ) :
    piece m (.between first last) = (m.drop first).take (last - first) := rfl

theorem str_eq_piece {first last : ℕ} (ordered : first ≤ last) (inside : last ≤ m.length)
    (fits : m.length < 2 ^ 63) :
    (SubString.between first last).str m = .ok (piece m (.between first last)) :=
  SubString.between_str (by omega) (by omega) (by omega)

theorem length_piece (inside : j ≤ m.length) : (piece m (.between i j)).length = j - i := by
  rw [piece_between, List.length_take, List.length_drop]
  omega

theorem piece_eq_nil (inside : j ≤ m.length) : piece m (.between i j) = [] ↔ j ≤ i := by
  rw [← List.length_eq_zero_iff, length_piece inside]
  omega

/-- Adjacent pieces join. -/
theorem take_append_piece (ordered : i ≤ j) : m.take i ++ piece m (.between i j) = m.take j := by
  rw [piece_between, ← List.take_add, Nat.add_sub_cancel' ordered]

theorem piece_append_drop (ordered : i ≤ j) : piece m (.between i j) ++ m.drop j = m.drop i := by
  have rest : m.drop j = (m.drop i).drop (j - i) := by
    rw [List.drop_drop, Nat.add_sub_cancel' ordered]
  rw [piece_between, rest, List.take_append_drop]

theorem take_succ_of_getElem? {c : Char} (here : m[i]? = some c) :
    m.take (i + 1) = m.take i ++ [c] := by
  rw [List.take_add_one, here]
  rfl

theorem drop_of_getElem? {c : Char} (here : m[i]? = some c) : m.drop i = c :: m.drop (i + 1) := by
  obtain ⟨inside, rfl⟩ := List.getElem?_eq_some_iff.mp here
  exact List.drop_eq_getElem_cons inside

/-- The text up to the end of a `"://"`. -/
theorem take_scheme (scheme : SchemeAt m i) : m.take (i + 3) = m.take i ++ [':', '/', '/'] := by
  rw [take_succ_of_getElem? scheme.2.2, take_succ_of_getElem? scheme.2.1,
    take_succ_of_getElem? scheme.1]
  simp

/-- The text up to the end of the credentials. -/
theorem take_credentials (login : b ≤ y) (pass : y + 1 ≤ w) (colon : m[y]? = some ':')
    (at_ : m[w]? = some '@') :
    m.take (w + 1) = m.take b ++ (piece m (.between b y) ++
      ':' :: (piece m (.between (y + 1) w) ++ ['@'])) := by
  rw [take_succ_of_getElem? at_, ← take_append_piece pass, take_succ_of_getElem? colon,
    ← take_append_piece login]
  simp

/-- A range that lies in the text. -/
def Inside (m : List Char) (s : SubString) : Prop :=
  ∃ first last, s = .between first last ∧ first ≤ last ∧ last ≤ m.length

theorem Inside.str {s : SubString} (inside : Inside m s) (fits : m.length < 2 ^ 63) :
    s.str m = .ok (piece m s) := by
  obtain ⟨first, last, rfl, ordered, below⟩ := inside
  exact str_eq_piece ordered below fits

theorem Inside.isSet_iff {s : SubString} (inside : Inside m s) :
    s.isSet = true ↔ piece m s ≠ [] := by
  obtain ⟨first, last, rfl, ordered, below⟩ := inside
  rw [SubString.isSet_between, ne_eq, piece_eq_nil below, Nat.not_le]

theorem inside_empty : Inside m {} := ⟨0, 0, rfl, Nat.le_refl 0, Nat.zero_le _⟩

end Pieces

namespace Parsed

variable {f : Url}

/-- After a parse all components lie in the text. -/
theorem inside (parsed : Parsed f) : Inside f.mUrl f.mProto ∧ Inside f.mUrl f.mLogin ∧
    Inside f.mUrl f.mPass ∧ Inside f.mUrl f.mHost ∧ Inside f.mUrl f.mPort ∧
      Inside f.mUrl f.mTail := by
  obtain ⟨x, proto, x_le, -⟩ := parsed.proto
  refine ⟨⟨0, x, proto, Nat.zero_le x, x_le⟩, parsed.login, ?_, parsed.host, ?_, ?_⟩
  · rcases parsed.pass with none | ⟨-, z, w, pass, -, ordered, w_le⟩
    · rw [none]
      exact inside_empty
    · exact ⟨z, w, pass, ordered, w_le⟩
  · rcases parsed.port with none | ⟨z, w, port, long, w_le, -⟩
    · rw [none]
      exact inside_empty
    · exact ⟨z, w, port, Nat.le_of_lt long, w_le⟩
  · rcases parsed.tail with none | ⟨z, tail, z_le, -⟩
    · rw [none]
      exact inside_empty
    · exact ⟨z, f.mUrl.length, tail, z_le, Nat.le_refl _⟩

/-- What it means that the text is accounted for, in terms of the ranges. -/
theorem accountsFor_iff (parsed : Parsed f) :
    AccountsFor f ↔ joined (piece f.mUrl f.mProto) (piece f.mUrl f.mLogin) (piece f.mUrl f.mPass)
        (piece f.mUrl f.mHost) (piece f.mUrl f.mPort) (piece f.mUrl f.mTail) = f.mUrl ∧
      ([f.mProto, f.mLogin, f.mPass, f.mHost, f.mPort, f.mTail].filter
        SubString.isSet).Pairwise fun first second => first.mEnd ≤ second.mBegin := by
  obtain ⟨proto, login, pass, host, port, tail⟩ := parsed.inside
  have fits := parsed.isSealed.fits
  constructor
  · rintro ⟨⟨_, _, _, _, _, _, readProto, readLogin, readPass, readHost, readPort, readTail,
      same⟩, apart⟩
    obtain rfl := Except.ok.inj ((proto.str fits).symm.trans readProto)
    obtain rfl := Except.ok.inj ((login.str fits).symm.trans readLogin)
    obtain rfl := Except.ok.inj ((pass.str fits).symm.trans readPass)
    obtain rfl := Except.ok.inj ((host.str fits).symm.trans readHost)
    obtain rfl := Except.ok.inj ((port.str fits).symm.trans readPort)
    obtain rfl := Except.ok.inj ((tail.str fits).symm.trans readTail)
    exact ⟨same, apart⟩
  · rintro ⟨same, apart⟩
    exact ⟨⟨_, _, _, _, _, _, proto.str fits, login.str fits, pass.str fits, host.str fits,
      port.str fits, tail.str fits, same⟩, apart⟩

end Parsed

/-! ## The end of a parse -/

/-- How a parse that was at `k` ends at the `'/'` at `n`: with a host up to `e`, and maybe a port
from there on. -/
structure Finished (t f : Url) (k e n : ℕ) : Prop where
  sameUrl : f.mUrl = t.mUrl
  proto : f.mProto = t.mProto
  login : f.mLogin = t.mLogin
  pass : f.mPass = t.mPass
  host : f.mHost = .between (t.hostBegin n) e
  ordered : t.hostBegin n ≤ e
  ahead : k ≤ e
  port : f.mPort = {} ∧ e = n ∨
    f.mPort = .between (e + 1) n ∧ e + 1 < n ∧ t.mUrl[e]? = some ':'
  slash : t.mUrl[n]? = some '/'
  tail : f.mTail = .between (n + 1) t.mUrl.length
  noAt : Clear (· == '@') t.mUrl k n

/-- None of the delimiters stands before the next one. -/
theorem clear_of_nextDelimiter {m : List Char} {k i : ℕ} (found : nextDelimiter m k = some i)
    {c : Char} (isDelimiter : c ∈ [':', '/', '@']) : Clear (· == c) m k i := by
  refine (nextDelimiter_eq_some.mp found).2.2.of_imp fun d same => ?_
  rw [eq_of_beq same]
  simpa using isDelimiter

namespace Fresh

variable {t f : Url} {b k i n : ℕ}

theorem finished_slash (fresh : Fresh t b k) (found : nextDelimiter t.mUrl k = some i)
    (here : t.mUrl[i]? = some '/') (ended : Ends (body false) (t, k) (.ok f)) :
    Finished t f k i i := by
  have ahead := (nextDelimiter_eq_some.mp found).1
  have bound := (List.getElem?_eq_some_iff.mp here).1
  rw [ends_of_slash fresh.isSealed found here] at ended
  obtain ⟨ordered, finished⟩ := fresh.finish_slash false ahead bound
  rw [finished] at ended
  cases ended
  exact ⟨rfl, rfl, rfl, rfl, rfl, ordered, ahead, .inl ⟨fresh.port, rfl⟩, here, rfl,
    clear_of_nextDelimiter found (by decide)⟩

theorem finished_port (fresh : Fresh t b k) (found : nextDelimiter t.mUrl k = some i)
    (begins : BeginsPort t.mUrl b i n) (ended : Ends (body false) (t, k) (.ok f)) :
    Finished t f k i n := by
  have ahead := (nextDelimiter_eq_some.mp found).1
  rw [fresh.toScanning.ends_of_port found begins.colon begins.inName fresh.port_unset
    begins.portAt] at ended
  obtain ⟨ordered, finished⟩ := fresh.finish_port false ahead begins
  rw [finished] at ended
  cases ended
  have toColon : Clear (· == '@') t.mUrl k (i + 1) := by
    refine (clear_of_nextDelimiter found (by decide)).snoc fun hit => ?_
    rw [hit_beq_iff, begins.colon] at hit
    cases hit
  have behind : Clear (· == '@') t.mUrl (i + 1) (n + 1) := begins.clear (by decide) (by decide)
  exact ⟨rfl, rfl, rfl, rfl, rfl, ordered, ahead, .inr ⟨rfl, begins.portAt.1, begins.colon⟩,
    begins.portAt.2.1, rfl, toColon.append (behind.mono (Nat.le_refl _) (Nat.le_succ n))⟩

end Fresh

namespace Finished

variable {t f : Url} {b k e n : ℕ}

theorem e_le (finished : Finished t f k e n) : e ≤ n := by
  rcases finished.port with ⟨-, same⟩ | ⟨-, long, -⟩ <;> omega

theorem n_lt (finished : Finished t f k e n) : n < t.mUrl.length :=
  (List.getElem?_eq_some_iff.mp finished.slash).1

/-- From the host on the components give the text. -/
theorem joined_host (finished : Finished t f k e n) :
    piece t.mUrl f.mHost ++ ((if piece t.mUrl f.mPort = [] then []
      else ':' :: piece t.mUrl f.mPort) ++ '/' :: piece t.mUrl f.mTail) =
        t.mUrl.drop (t.hostBegin n) := by
  have tail : '/' :: piece t.mUrl f.mTail = t.mUrl.drop n := by
    rw [drop_of_getElem? finished.slash, finished.tail, piece_between, ← List.length_drop,
      List.take_length]
  rw [tail, finished.host, ← piece_append_drop finished.ordered]
  congr 1
  rcases finished.port with ⟨none, rfl⟩ | ⟨port, long, colon⟩
  · rw [none]
    rfl
  · have nonempty : piece t.mUrl f.mPort ≠ [] := by
      rw [port, ne_eq, piece_eq_nil (Nat.le_of_lt finished.n_lt)]
      omega
    rw [if_neg nonempty, port, drop_of_getElem? colon, List.cons_append,
      piece_append_drop (Nat.le_of_lt long)]

/-- The host, the port and the tail are apart, and behind what is before the host. -/
theorem apart (finished : Finished t f k e n) (before : List SubString)
    (ends : ∀ s ∈ before, s.isSet = true → s.mEnd ≤ t.hostBegin n)
    (apart : (before.filter SubString.isSet).Pairwise
      fun first second => first.mEnd ≤ second.mBegin) :
    ((before ++ [f.mHost, f.mPort, f.mTail]).filter SubString.isSet).Pairwise
      fun first second => first.mEnd ≤ second.mBegin := by
  have ordered := finished.ordered
  have e_le := finished.e_le
  have portBegin : f.mPort.isSet = true → e ≤ f.mPort.mBegin ∧ f.mPort.mEnd = n := by
    intro isSet
    rcases finished.port with ⟨none, -⟩ | ⟨port, -, -⟩
    · rw [none] at isSet
      cases isSet
    · rw [port]
      exact ⟨Nat.le_succ e, rfl⟩
  rw [List.filter_append, List.pairwise_append]
  refine ⟨apart, ?_, ?_⟩
  · rw [List.pairwise_filter, finished.host, finished.tail]
    simp only [List.pairwise_cons, List.mem_cons, List.not_mem_nil, or_false, forall_eq_or_imp,
      forall_eq, SubString.between_mEnd, SubString.between_mBegin, IsEmpty.forall_iff,
      implies_true, List.Pairwise.nil, and_true]
    refine ⟨⟨fun _ isSet => (portBegin isSet).1, fun _ _ => by omega⟩, fun isSet _ => ?_⟩
    rw [(portBegin isSet).2]
    exact Nat.le_succ n
  · intro first inBefore second inRest
    obtain ⟨member, isSet⟩ := List.mem_filter.mp inBefore
    obtain ⟨memberRest, isSetRest⟩ := List.mem_filter.mp inRest
    have first_le := ends first member isSet
    rw [finished.host, finished.tail] at memberRest
    simp only [List.mem_cons, List.not_mem_nil, or_false] at memberRest
    rcases memberRest with rfl | rfl | rfl
    · exact first_le
    · have port := (portBegin isSetRest).1
      omega
    · rw [SubString.between_mBegin]
      omega

end Finished

/-! ## Before the host -/

/-- What the components before the host give. -/
def front (t : Url) (b : ℕ) : List Char :=
  (if 3 < b then t.mUrl.take b else []) ++
    (if t.mLogin.isSet then piece t.mUrl t.mLogin ++ ':' :: (piece t.mUrl t.mPass ++ ['@']) else [])

/-- A segment that is not the first begins behind a `"://"`. -/
theorem Scanning.scheme_before {t : Url} {b k : ℕ} (scan : Scanning t b k) (long : 3 < b) :
    SchemeAt t.mUrl (b - 3) := by
  rcases scan.segment with zero | ⟨-, scheme⟩
  · omega
  · exact scheme

namespace Fresh

variable {t f : Url} {b k e n : ℕ}

/-- The protocol gives the text before the segment. -/
theorem joined_proto (fresh : Fresh t b k) (inside : k ≤ t.mUrl.length) :
    (if piece t.mUrl t.mProto = [] then [] else piece t.mUrl t.mProto ++ [':', '/', '/']) =
      if 3 < b then t.mUrl.take b else [] := by
  have behind := fresh.start_le
  rw [fresh.proto_eq]
  by_cases long : 3 < b
  · have nonempty : piece t.mUrl (.between 0 (b - 3)) ≠ [] := by
      rw [ne_eq, piece_eq_nil (by omega)]
      omega
    have ends := take_scheme (fresh.toScanning.scheme_before long)
    rw [Nat.sub_add_cancel (Nat.le_of_lt long)] at ends
    rw [if_neg nonempty, if_pos long, ends, piece_between]
    rfl
  · rw [if_neg long, if_pos ((piece_eq_nil (by omega)).mpr (by omega))]

/-- The components give the text exactly when those before the host give what is before it. -/
theorem joined_eq_iff (fresh : Fresh t b k) (inside : k ≤ t.mUrl.length)
    (finished : Finished t f k e n) :
    joined (piece f.mUrl f.mProto) (piece f.mUrl f.mLogin) (piece f.mUrl f.mPass)
        (piece f.mUrl f.mHost) (piece f.mUrl f.mPort) (piece f.mUrl f.mTail) = f.mUrl ↔
      t.front b = t.mUrl.take (t.hostBegin n) := by
  have login : (if piece t.mUrl t.mLogin = [] then []
      else piece t.mUrl t.mLogin ++ ':' :: (piece t.mUrl t.mPass ++ ['@'])) =
        if t.mLogin.isSet then piece t.mUrl t.mLogin ++ ':' :: (piece t.mUrl t.mPass ++ ['@'])
        else [] := by
    have isSet := Inside.isSet_iff (fresh.login_le inside)
    by_cases empty : piece t.mUrl t.mLogin = []
    · rw [if_pos empty, if_neg fun set => isSet.mp set empty]
    · rw [if_neg empty, if_pos (isSet.mpr empty)]
  rw [joined, finished.sameUrl, finished.proto, finished.login, finished.pass,
    finished.joined_host, fresh.joined_proto inside, login, ← front]
  conv_lhs => rhs; rw [← List.take_append_drop (t.hostBegin n) t.mUrl]
  exact List.append_left_inj _

/-- The host begins behind the password. -/
theorem hostBegin_of_pass (fresh : Fresh t b k) (isSet : t.mPass.isSet = true) (ahead : k ≤ n)
    (inside : n < t.mUrl.length) (clear : Clear (· == '@') t.mUrl (t.mPass.mEnd + 1) n) :
    t.hostBegin n = t.mPass.mEnd + 1 := by
  have fits := fresh.isSealed.fits
  rcases fresh.pass with none | ⟨-, z, w, pass, -, -, behind, here⟩
  · rw [none] at isSet
    cases isSet
  · rw [hostBegin, if_pos isSet]
    rw [pass, SubString.between_mEnd] at clear ⊢
    have before : (n + npos) % 2 ^ 64 = n - 1 := by
      rw [npos]
      omega
    have last : lastUpTo (· == '@') t.mUrl (n - 1) = some w := by
      refine lastUpTo_eq_some.mpr ⟨by omega, hit_beq_iff.mpr here, ?_⟩
      exact clear.mono (Nat.le_refl _) (by omega)
    rw [before, rfind, last, Option.getD_some]
    omega

/-- Without a password it begins behind the first `"://"`, when there is a protocol. -/
theorem hostBegin_of_scheme (fresh : Fresh t b k) (unset : t.mPass.isSet = false) (long : 3 < b)
    {j : ℕ} (scheme : SchemeAt t.mUrl j) (first : ∀ i, i < j → ¬SchemeAt t.mUrl i) :
    t.hostBegin n = j + 3 := by
  have fits := fresh.isSealed.fits
  have bound := scheme.lt_length
  have found : find t.mUrl [':', '/', '/'] = j := by
    rw [find, firstBlock_eq_some (by simp) (scheme_prefix_iff.mpr scheme) fun i before here =>
      first i before (scheme_prefix_iff.mp here), Option.getD_some]
  rw [hostBegin, unset, if_neg Bool.false_ne_true, if_pos (fresh.toScanning.proto_isSet.mpr long),
    found]
  omega

theorem hostBegin_of_none (fresh : Fresh t b k) (unset : t.mPass.isSet = false) (short : b ≤ 3) :
    t.hostBegin n = 0 := by
  have noProto : ¬t.mProto.isSet = true := by
    rw [fresh.toScanning.proto_isSet]
    omega
  rw [hostBegin, unset, if_neg Bool.false_ne_true, if_neg noProto]

/-- So it begins before the segment. -/
theorem hostBegin_le_segment (fresh : Fresh t b k) (unset : t.mPass.isSet = false) :
    t.hostBegin n ≤ if 3 < b then b else 0 := by
  by_cases long : 3 < b
  · have scheme := fresh.toScanning.scheme_before long
    have some : ∃ j, SchemeAt t.mUrl j := ⟨b - 3, scheme⟩
    have least := Nat.find_min' some scheme
    rw [if_pos long, fresh.hostBegin_of_scheme unset long (Nat.find_spec some)
      fun i before => Nat.find_min some before]
    omega
  · rw [if_neg long, fresh.hostBegin_of_none unset (by omega)]

/-- A parse that stops behind a `"://"` has taken the sentinel for a part of it. -/
theorem not_accountsFor_of_stop (fresh : Fresh t b k) {i : ℕ}
    (found : nextDelimiter t.mUrl k = some i) (stops : i + 3 = t.mUrl.length)
    (parsed : Parsed { t with mProto := .between 0 i, mValid := true }) :
    ¬AccountsFor { t with mProto := .between 0 i, mValid := true } := by
  have ahead := (nextDelimiter_eq_some.mp found).1
  rw [parsed.accountsFor_iff]
  rintro ⟨same, -⟩
  change joined (piece t.mUrl (.between 0 i)) (piece t.mUrl t.mLogin) (piece t.mUrl t.mPass)
    (piece t.mUrl t.mHost) (piece t.mUrl t.mPort) (piece t.mUrl t.mTail) = t.mUrl at same
  rw [fresh.host, fresh.port, fresh.tail] at same
  have length := congrArg List.length same
  have proto : (piece t.mUrl (.between 0 i)).length = i := length_piece (by omega)
  by_cases zero : i = 0
  · obtain ⟨x, y, login, ordered, below⟩ := fresh.login
    have empty : t.mLogin.isSet = false := by
      rw [← Bool.not_eq_true, login, SubString.isSet_between]
      omega
    have noLogin : piece t.mUrl t.mLogin = [] := by
      rw [login, piece_eq_nil (by omega)]
      omega
    have noProto : piece t.mUrl (.between 0 i) = [] := List.length_eq_zero_iff.mp (proto.trans zero)
    simp only [joined, noProto, noLogin, piece_empty, if_true, List.nil_append,
      List.length_singleton] at length
    omega
  · have nonempty : piece t.mUrl (.between 0 i) ≠ [] := by
      rw [ne_eq, ← List.length_eq_zero_iff, proto]
      exact zero
    simp only [joined, if_neg nonempty, List.length_append, List.length_cons, List.length_nil,
      proto] at length
    omega

end Fresh

/-! ## Once there is a login -/

/-- A new object between two rounds, once there is a login: it belongs to this segment, or a
protocol has ended behind it. -/
structure Named (t : Url) (b k : ℕ) : Prop extends Fresh t b k where
  isSet : t.mLogin.isSet = true
  place : t.mLogin.mBegin = b ∧ Clear (· == ':') t.mUrl (t.mLogin.mEnd + 1) k ∨
    t.mLogin.mBegin < b ∧ 3 < b ∧ Clear (· == ':') t.mUrl b k
  passPlace : t.mPass.isSet = true → Clear (· == '@') t.mUrl (t.mPass.mEnd + 1) k ∧
    (t.mLogin.mBegin = b ∧ t.mPass.mBegin = t.mLogin.mEnd + 1 ∨
      t.mLogin.mBegin < b ∧ 3 < b ∧ t.mPass.mBegin ≤ b)

namespace Named

variable {t f : Url} {b k e n i : ℕ}

theorem length_front (named : Named t b k) (inside : k ≤ t.mUrl.length) :
    (t.front b).length = (if 3 < b then b else 0) + (t.mLogin.mEnd - t.mLogin.mBegin) +
      (piece t.mUrl t.mPass).length + 2 := by
  have behind := named.start_le
  obtain ⟨x, y, login, ordered, below⟩ := named.login
  have loginLength : (piece t.mUrl t.mLogin).length = t.mLogin.mEnd - t.mLogin.mBegin := by
    rw [login]
    exact length_piece (by omega)
  have proto : (if 3 < b then t.mUrl.take b else []).length = if 3 < b then b else 0 := by
    split
    · rw [List.length_take]
      omega
    · rfl
  rw [front, if_pos named.isSet, List.length_append, proto, List.length_append, loginLength,
    List.length_cons, List.length_append, List.length_singleton]
  omega

/-- The login of this segment and its password stand one behind the other. -/
theorem credentials (named : Named t b k) (own : t.mLogin.mBegin = b)
    (passSet : t.mPass.isSet = true) :
    ∃ y w, t.mLogin = .between b y ∧ t.mPass = .between (y + 1) w ∧ b < y ∧ y + 1 ≤ w ∧
      t.mUrl[y]? = some ':' ∧ t.mUrl[w]? = some '@' := by
  have begins := named.login_begin_lt named.isSet
  have colon := (named.login_colon named.isSet).1
  have place := (named.passPlace passSet).2
  obtain ⟨x, y, login, -, -⟩ := named.login
  rw [login, SubString.between_mBegin] at own begins place
  rw [login, SubString.between_mEnd] at colon
  rw [SubString.between_mEnd] at begins place
  subst own
  rcases named.pass with none | ⟨-, z, w, pass, -, z_le, -, here⟩
  · rw [none] at passSet
    cases passSet
  · rw [pass, SubString.between_mBegin] at place
    have behind : z = y + 1 := by
      rcases place with ⟨-, after⟩ | ⟨before, -⟩ <;> omega
    subst behind
    exact ⟨y, w, login, pass, begins, z_le, colon, here⟩

/-- With them the components before the host give the text up to the host. -/
theorem front_of_credentials {y w : ℕ} (named : Named t b k) (segment : b ≠ 3)
    (login : t.mLogin = .between b y) (pass : t.mPass = .between (y + 1) w) (long : b < y)
    (ordered : y + 1 ≤ w) (colon : t.mUrl[y]? = some ':') (here : t.mUrl[w]? = some '@') :
    t.front b = t.mUrl.take (w + 1) := by
  have proto : (if 3 < b then t.mUrl.take b else []) = t.mUrl.take b := by
    rcases named.segment with zero | ⟨three, -⟩
    · rw [zero]
      rfl
    · rw [if_pos (by omega)]
  rw [front, if_pos named.isSet, proto, login, pass]
  exact (take_credentials (Nat.le_of_lt long) ordered colon here).symm

/-- All components are apart then. -/
theorem apart_of_credentials {y w : ℕ} (named : Named t b k) (finished : Finished t f k e n)
    (login : t.mLogin = .between b y) (pass : t.mPass = .between (y + 1) w) (long : b < y)
    (ordered : y + 1 ≤ w) (begins : t.hostBegin n = w + 1) :
    ([f.mProto, f.mLogin, f.mPass, f.mHost, f.mPort, f.mTail].filter
      SubString.isSet).Pairwise fun first second => first.mEnd ≤ second.mBegin := by
  rw [finished.proto, finished.login, finished.pass, named.proto_eq, login, pass]
  refine finished.apart [.between 0 (b - 3), .between b y, .between (y + 1) w] ?_ ?_
  · rw [begins]
    simp only [List.mem_cons, List.not_mem_nil, or_false, forall_eq_or_imp, forall_eq,
      SubString.between_mEnd]
    refine ⟨fun _ => by omega, fun _ => by omega, fun _ => by omega⟩
  · rw [List.pairwise_filter]
    simp only [List.pairwise_cons, List.mem_cons, List.not_mem_nil, or_false, forall_eq_or_imp,
      forall_eq, SubString.between_mEnd, SubString.between_mBegin, IsEmpty.forall_iff,
      implies_true, List.Pairwise.nil, and_true]
    refine ⟨⟨fun _ _ => by omega, fun _ _ => by omega⟩, fun _ _ => by omega⟩

/-- **At the end** the text is accounted for when there is a password, and the login belongs to the
last segment and is not behind an empty protocol. -/
theorem accountsFor_of_finished (named : Named t b k) (inside : k ≤ t.mUrl.length)
    (finished : Finished t f k e n) (parsed : Parsed f) :
    AccountsFor f ↔ t.mLogin.mBegin = b ∧ b ≠ 3 ∧ t.mPass.isSet = true := by
  have loginLong := named.login_begin_lt named.isSet
  have length := named.length_front inside
  have ahead := finished.ahead
  have e_le := finished.e_le
  have n_lt := finished.n_lt
  rw [parsed.accountsFor_iff, named.joined_eq_iff inside finished]
  by_cases passSet : t.mPass.isSet = true
  · obtain ⟨clear, place⟩ := named.passPlace passSet
    have begins := named.hostBegin_of_pass passSet (by omega) n_lt (clear.append finished.noAt)
    constructor
    · -- A login that is not the credentials of this segment makes the text too long.
      rintro ⟨same, -⟩
      rw [same, List.length_take, begins] at length
      rcases named.pass with none | ⟨-, z, w, pass, -, z_le, w_lt, -⟩
      · rw [none] at passSet
        cases passSet
      · rw [pass, length_piece (by omega), SubString.between_mEnd] at length
        rw [pass, SubString.between_mBegin] at place
        rcases place with ⟨own, after⟩ | ⟨before, long, after⟩
        · refine ⟨own, ?_, passSet⟩
          rintro rfl
          rw [if_neg (Nat.lt_irrefl 3)] at length
          omega
        · rw [if_pos long] at length
          omega
    · rintro ⟨own, other, -⟩
      obtain ⟨y, w, login, pass, long, ordered, colon, here⟩ := named.credentials own passSet
      rw [pass, SubString.between_mEnd] at begins
      rw [begins]
      exact ⟨named.front_of_credentials other login pass long ordered colon here,
        named.apart_of_credentials finished login pass long ordered begins⟩
  · refine iff_of_false ?_ fun credited => passSet credited.2.2
    rintro ⟨same, -⟩
    have before := named.hostBegin_le_segment (n := n) (Bool.eq_false_iff.mpr passSet)
    rw [same, List.length_take] at length
    omega

theorem scheme (named : Named t b k) (found : nextDelimiter t.mUrl k = some i)
    (ends : EndsProto t.mUrl b i) : Named { t with mProto := .between 0 i } (i + 3) (i + 3) := by
  have ahead := (nextDelimiter_eq_some.mp found).1
  have start := named.start_le
  have begins := named.login_begin_lt named.isSet
  have before := (named.login_colon named.isSet).2
  have earlier : t.mLogin.mBegin < i + 3 := by omega
  refine { named.toFresh.scheme found ends with isSet := named.isSet, place := ?_, passPlace := ?_ }
  · exact .inr ⟨earlier, by omega, clear_of_le (Nat.le_refl _)⟩
  · intro isSet
    obtain ⟨clear, -⟩ := named.passPlace isSet
    have toScheme := clear.append (clear_of_nextDelimiter found (c := '@') (by decide))
    refine ⟨?_, .inr ⟨earlier, by omega, ?_⟩⟩
    · refine ((toScheme.snoc ?_).snoc ?_).snoc ?_
      · rw [hit_beq_iff, ends.2.1]
        decide
      · rw [hit_beq_iff, ends.2.2.1]
        decide
      · rw [hit_beq_iff, ends.2.2.2]
        decide
    · rcases named.pass with none | ⟨-, z, w, pass, -, z_le, w_lt, -⟩
      · change t.mPass.isSet = true at isSet
        rw [none] at isSet
        cases isSet
      · change t.mPass.mBegin ≤ i + 3
        rw [pass, SubString.between_mBegin]
        omega

/-- An `'@'` ends the password, which begins behind the login when that belongs to the segment. -/
theorem atSign {c : ℕ} (named : Named t b k) (found : nextDelimiter t.mUrl k = some i)
    (here : t.mUrl[i]? = some '@') (positive : 0 < i)
    (colon : lastUpTo (· == ':') t.mUrl (i - 1) = some c)
    (next : Fresh { t with mPass := .between (c + 1) i } b (i + 1)) :
    Named { t with mPass := .between (c + 1) i } b (i + 1) := by
  have ahead := (nextDelimiter_eq_some.mp found).1
  have noColon : Clear (· == ':') t.mUrl k (i + 1) := by
    refine (clear_of_nextDelimiter found (by decide)).snoc fun hit => ?_
    rw [hit_beq_iff, here] at hit
    cases hit
  obtain ⟨c_le, hit, clear⟩ := lastUpTo_eq_some.mp colon
  obtain ⟨loginColon, before⟩ := named.login_colon named.isSet
  refine { next with isSet := named.isSet, place := ?_, passPlace := ?_ }
  · rcases named.place with ⟨own, after⟩ | ⟨earlier, long, after⟩
    · exact .inl ⟨own, after.append noColon⟩
    · exact .inr ⟨earlier, long, after.append noColon⟩
  · intro _
    refine ⟨clear_of_le (Nat.le_refl _), ?_⟩
    rcases named.place with ⟨own, after⟩ | ⟨earlier, long, after⟩
    · refine .inl ⟨own, ?_⟩
      have notLater : ¬t.mLogin.mEnd + 1 ≤ c := fun later =>
        (after.append noColon) c later (by omega) hit
      have notEarlier : ¬c + 1 ≤ t.mLogin.mEnd := fun later =>
        clear t.mLogin.mEnd later (by omega) (hit_beq_iff.mpr loginColon)
      change c + 1 = t.mLogin.mEnd + 1
      omega
    · refine .inr ⟨earlier, long, ?_⟩
      have notLater : ¬b ≤ c := fun later => (after.append noColon) c later (by omega) hit
      change c + 1 ≤ b
      omega

end Named

/-- The login and what is ahead are accounted for in the end. -/
structure Kept (t : Url) (b k : ℕ) : Prop where
  own : t.mLogin.mBegin = b
  segment : b ≠ 3
  noProto : ¬Finds t.mUrl b k (EndsProto t.mUrl)
  pass : t.mPass.isSet = true ∨ Finds t.mUrl b k (EndsPass t.mUrl)

namespace Named

variable {t f : Url} {b k e n i : ℕ}

/-- The `'@'` that is met decides whether there is a password. -/
theorem kept_of_at {c : ℕ} (found : nextDelimiter t.mUrl k = some i)
    (here : t.mUrl[i]? = some '@') (unset : t.mPass.isSet = false) (positive : 0 < i)
    (colon : lastUpTo (· == ':') t.mUrl (i - 1) = some c) :
    t.Kept b k ↔ Kept { t with mPass := .between (c + 1) i } b (i + 1) := by
  have round : ∀ kind, Finds t.mUrl b k kind ↔ kind b i ∨ Finds t.mUrl b (i + 1) kind :=
    fun _ => finds_of_name found (.inr here)
  have noScheme : ¬EndsProto t.mUrl b i := not_endsProto_of_name (.inr here)
  obtain ⟨c_le, hit, clear⟩ := lastUpTo_eq_some.mp colon
  have ends : EndsPass t.mUrl b i ↔ (SubString.between (c + 1) i).isSet = true := by
    rw [EndsPass, and_iff_right here, SubString.isSet_between]
    constructor
    · intro other
      by_contra short
      have last : c = i - 1 := by omega
      exact other (last ▸ hit_beq_iff.mp hit)
    · intro long same
      exact clear (i - 1) (by omega) (by omega) (hit_beq_iff.mpr same)
  have proto : Finds t.mUrl b k (EndsProto t.mUrl) ↔
      Finds t.mUrl b (i + 1) (EndsProto t.mUrl) := (round _).trans (or_iff_right noScheme)
  have pass : t.mPass.isSet = true ∨ Finds t.mUrl b k (EndsPass t.mUrl) ↔
      (SubString.between (c + 1) i).isSet = true ∨
        Finds t.mUrl b (i + 1) (EndsPass t.mUrl) := by
    rw [round, ends, unset, or_iff_right Bool.false_ne_true]
  constructor
  · rintro ⟨own, segment, noProto, isSet⟩
    exact ⟨own, segment, fun finds => noProto (proto.mpr finds), pass.mp isSet⟩
  · rintro ⟨own, segment, noProto, isSet⟩
    exact ⟨own, segment, fun finds => noProto (proto.mp finds), pass.mpr isSet⟩

/-- At the delimiter that ends the parse nothing is ahead. -/
theorem kept_of_stop (stop : ∀ kind, Finds t.mUrl b k kind ↔ kind b i)
    (noScheme : ¬EndsProto t.mUrl b i) (noAt : t.mUrl[i]? ≠ some '@') :
    t.Kept b k ↔ t.mLogin.mBegin = b ∧ b ≠ 3 ∧ t.mPass.isSet = true := by
  constructor
  · rintro ⟨own, segment, -, isSet | finds⟩
    · exact ⟨own, segment, isSet⟩
    · exact absurd ((stop _).mp finds).1 noAt
  · rintro ⟨own, segment, isSet⟩
    exact ⟨own, segment, fun finds => noScheme ((stop _).mp finds), .inl isSet⟩

/-- **Once there is a login** the text is accounted for exactly when the login is kept. -/
theorem accountsFor_iff (named : Named t b k) (inside : k < t.mUrl.length)
    (ended : Ends (body false) (t, k) (.ok f)) : AccountsFor f ↔ t.Kept b k := by
  have hm := named.isSealed
  have parsed := named.toFresh.parsed (Nat.le_of_lt inside) ended
  induction rest : t.mUrl.length - k using Nat.strongRecOn generalizing t b k with
  | _ rest ih =>
      subst rest
      obtain ⟨i, found⟩ := hm.exists_delimiter inside
      have ahead := (nextDelimiter_eq_some.mp found).1
      cases delimiter_of_next b found with
      | scheme ends =>
          have bound := ends.lt_length
          have next := named.scheme found ends
          have lost : ¬t.Kept b k := fun kept =>
            kept.noProto ((finds_of_scheme found ends).mpr (.inl ends))
          rw [named.toScanning.ends_of_scheme found ends] at ended
          refine iff_of_false ?_ lost
          rcases Nat.lt_or_ge (i + 3) t.mUrl.length with more | stops
          · intro accounts
            have kept := (ih _ (by change t.mUrl.length - (i + 3) < _; omega) next more ended hm
              rfl).mp accounts
            -- The login belongs to an earlier segment.
            have own : t.mLogin.mBegin = i + 3 := kept.own
            have before := (named.login_colon named.isSet).2
            have begins := named.login_begin_lt named.isSet
            omega
          · obtain rfl := Except.ok.inj ((ends_of_end (u := { t with mProto := .between 0 i })
              stops).mp ended)
            exact named.not_accountsFor_of_stop found (by omega) parsed
      | port n begins =>
          have noAt : t.mUrl[i]? ≠ some '@' := by
            rw [begins.colon]
            decide
          rw [named.accountsFor_of_finished (Nat.le_of_lt inside)
            (named.finished_port found begins ended) parsed,
            kept_of_stop (fun _ => finds_of_port found begins) begins.inName noAt]
      | login ends =>
          obtain ⟨unset, -⟩ := named.accepted_login found ends ended
          rw [named.isSet] at unset
          cases unset
      | atSign here =>
          have bound := hm.succ_lt_length here (by decide)
          obtain ⟨unset, -, c, positive, colon, next, later⟩ := named.accepted_at found here ended
          rw [kept_of_at found here unset positive colon]
          exact ih _ (by change t.mUrl.length - (i + 1) < _; omega)
            (named.atSign found here positive colon next) bound later hm rfl
      | slash here =>
          have noAt : t.mUrl[i]? ≠ some '@' := by
            rw [here]
            decide
          rw [named.accountsFor_of_finished (Nat.le_of_lt inside)
            (named.finished_slash found here ended) parsed,
            kept_of_stop (fun _ => finds_of_slash found here) (not_endsProto_of_slash here) noAt]

end Named

/-- A parse that comes to its end is not asked for a second login. -/
theorem Fresh.not_asksLogin {t f : Url} {b k : ℕ} (fresh : Fresh t b k)
    (isSet : t.mLogin.isSet = true) (inside : k ≤ t.mUrl.length)
    (ended : Ends (body false) (t, k) (.ok f)) : ¬AsksLogin t.mUrl b k := by
  have hm := fresh.isSealed
  induction rest : t.mUrl.length - k using Nat.strongRecOn generalizing t b k with
  | _ rest ih =>
      subst rest
      rcases Nat.lt_or_ge k t.mUrl.length with before | outside
      · obtain ⟨i, found⟩ := hm.exists_delimiter before
        have ahead := (nextDelimiter_eq_some.mp found).1
        cases delimiter_of_next b found with
        | scheme ends =>
            have bound := ends.lt_length
            rw [fresh.toScanning.ends_of_scheme found ends] at ended
            have later := ih _ (by change t.mUrl.length - (i + 3) < _; omega)
              (fresh.scheme found ends) isSet (by change i + 3 ≤ t.mUrl.length; omega) ended hm rfl
            rw [AsksLogin, finds_of_scheme found ends, not_or]
            exact ⟨fun login => login.inName ends, later⟩
        | port n begins =>
            rw [AsksLogin, finds_of_port found begins]
            exact fun login => login.noPort n begins.portAt
        | login ends =>
            obtain ⟨unset, -⟩ := fresh.accepted_login found ends ended
            rw [isSet] at unset
            cases unset
        | atSign here =>
            have bound := (List.getElem?_eq_some_iff.mp here).1
            obtain ⟨_, _, c, _, _, next, ended⟩ := fresh.accepted_at found here ended
            have later := ih _ (by change t.mUrl.length - (i + 1) < _; omega) next isSet
              (by change i + 1 ≤ t.mUrl.length; omega) ended hm rfl
            rw [AsksLogin, finds_of_name found (.inr here), not_or]
            refine ⟨fun login => ?_, later⟩
            have colon := login.colon
            rw [here] at colon
            cases colon
        | slash here =>
            rw [AsksLogin, finds_of_slash found here]
            exact fun login => login.not_slash here
      · exact not_finds_outside outside

/-! ## Before there is a login -/

section Ahead

variable {m : List Char} {b k i : ℕ}

/-- A `"://"` at the start of the text ends a protocol there, an empty one. -/
theorem Scanning.eq_zero_of_schemeAt {t : Url} (scan : Scanning t b k)
    (found : nextDelimiter t.mUrl k = some i) (ends : EndsProto t.mUrl b i) {j : ℕ}
    (scheme : SchemeAt t.mUrl j) (before : j < i) : j = 0 ∧ b = 3 := by
  have clear := scan.clear_next found
  have early := ends.1
  have other : j + 1 ≠ i := by
    rintro rfl
    have colon := ends.colon
    rw [scheme.2.1] at colon
    cases colon
  rcases scan.segment with rfl | ⟨long, atStart⟩
  · exact absurd (hit_beq_iff.mpr scheme.2.1) (clear (j + 1) (Nat.zero_le _) (by omega))
  · obtain rfl : b = 3 := by omega
    refine ⟨?_, rfl⟩
    by_contra positive
    rcases Nat.lt_or_ge j 3 with inScheme | behind
    · have place : j = 1 ∨ j = 2 := by omega
      have colon := scheme.1
      rcases place with rfl | rfl
      · rw [atStart.2.1] at colon
        cases colon
      · rw [atStart.2.2] at colon
        cases colon
    · exact absurd (hit_beq_iff.mpr scheme.2.1) (clear (j + 1) (by omega) (by omega))

/-- Behind a protocol the same protocols lie behind an empty one. -/
theorem lateProto_of_scheme {t : Url} (scan : Scanning t b k)
    (found : nextDelimiter t.mUrl k = some i) (ends : EndsProto t.mUrl b i) :
    LateProto t.mUrl b k ↔ LateProto t.mUrl (i + 3) (i + 3) := by
  have ahead := (nextDelimiter_eq_some.mp found).1
  have behind := scan.start_le
  have early := ends.1
  rw [LateProto, LateProto]
  apply and_congr_right
  intro atStart
  rw [finds_of_scheme found ends]
  rcases Nat.eq_zero_or_pos i with rfl | positive
  · -- The empty protocol is the one that ends here.
    constructor
    · rintro (long | ⟨-, late⟩ | later)
      · omega
      · omega
      · exact .inr later
    · rintro (long | later)
      · omega
      · exact .inr (.inr later)
  · have three := (scan.eq_zero_of_schemeAt found ends atStart positive).2
    exact iff_of_true (.inr (.inl ⟨ends, three⟩)) (.inl (by omega))

/-- A round without such a login passes on what has to be ahead. -/
theorem tells_of_round {b' k' : ℕ} (stops : StopsBehindProto m b k ↔ StopsBehindProto m b' k')
    (names : NamesLogin m b k ↔ NamesLogin m b' k')
    (credited : NamesCredited m b k ↔ NamesCredited m b' k')
    (late : LateProto m b k ↔ LateProto m b' k') : Tells m b k ↔ Tells m b' k' := by
  constructor
  · intro tells
    exact ⟨fun stop => tells.ended (stops.mpr stop),
      fun named => credited.mp (tells.named (names.mpr named)),
      fun unnamed lateThere => tells.unnamed (fun named => unnamed (names.mp named))
        (late.mpr lateThere)⟩
  · intro tells
    exact ⟨fun stop => tells.ended (stops.mp stop),
      fun named => credited.mpr (tells.named (names.mp named)),
      fun unnamed lateHere => tells.unnamed (fun named => unnamed (names.mpr named))
        (late.mp lateHere)⟩

theorem tells_of_scheme {t : Url} (scan : Scanning t b k)
    (found : nextDelimiter t.mUrl k = some i) (ends : EndsProto t.mUrl b i)
    (more : i + 3 ≠ t.mUrl.length) :
    Tells t.mUrl b k ↔ Tells t.mUrl (i + 3) (i + 3) := by
  have same := sameAhead_of_scheme found ends more
  have credited : NamesCredited t.mUrl b k ↔ NamesCredited t.mUrl (i + 3) (i + 3) :=
    (finds_of_scheme found ends).trans (or_iff_right fun login => login.1.inName ends)
  exact tells_of_round same.stops same.names credited (lateProto_of_scheme scan found ends)

/-- A login that is empty changes nothing. -/
theorem tells_of_empty_login (found : nextDelimiter m k = some i) (ends : EndsLogin m b i)
    (empty : ¬b < i) : Tells m b k ↔ Tells m b (i + 1) := by
  obtain ⟨-, names, -, stops⟩ := ahead_of_login found ends
  rw [or_iff_right empty] at names
  have round : ∀ kind, Finds m b k kind ↔ kind b i ∨ Finds m b (i + 1) kind :=
    fun _ => finds_of_name found (.inl ends)
  have protos := (round fun a j => EndsProto m a j ∧ a = 3).trans
    (or_iff_right fun proto => ends.inName proto.1)
  have late : LateProto m b k ↔ LateProto m b (i + 1) := by
    rw [LateProto, LateProto, protos]
  have credited : NamesCredited m b k ↔ NamesCredited m b (i + 1) :=
    (round _).trans (or_iff_right fun login => empty login.2.1)
  exact tells_of_round stops names credited late

/-- The one login that is not empty has to be part of the credentials. -/
theorem tells_of_login (found : nextDelimiter m k = some i) (ends : EndsLogin m b i)
    (long : b < i) (only : ¬AsksLogin m b (i + 1)) : Tells m b k ↔ Credited m b (i + 1) := by
  obtain ⟨-, names, -, stops⟩ := ahead_of_login found ends
  have credited : NamesCredited m b k ↔ Credited m b (i + 1) := by
    rw [NamesCredited, finds_of_name found (.inl ends), or_iff_left]
    · exact ⟨fun login => login.2.2, fun credited => ⟨ends, long, credited⟩⟩
    · rintro ⟨a, j, meets, login, -⟩
      exact only ⟨a, j, meets, login⟩
  constructor
  · intro tells
    exact credited.mp (tells.named (names.mpr (.inl long)))
  · intro holds
    refine ⟨fun stop => ?_, fun _ => credited.mpr holds, fun unnamed => ?_⟩
    · obtain ⟨a, j, meets, proto, -⟩ := stops.mp stop
      exact holds.noProto ⟨a, j, meets, proto⟩
    · exact absurd (names.mpr (.inl long)) unnamed

/-- At the delimiter that ends the parse nothing is ahead. -/
theorem tells_of_stop (stop : ∀ kind, Finds m b k kind ↔ kind b i) (noScheme : ¬EndsProto m b i)
    (noLogin : ¬EndsLogin m b i) : Tells m b k ↔ ¬(SchemeAt m 0 ∧ 3 < b) := by
  have late : LateProto m b k ↔ SchemeAt m 0 ∧ 3 < b := by
    rw [LateProto, stop, or_iff_left fun proto => noScheme proto.1]
  have unnamed : ¬NamesLogin m b k := fun named => noLogin ((stop _).mp named).1
  constructor
  · intro tells lateHere
    exact tells.unnamed unnamed (late.mpr lateHere)
  · intro early
    exact ⟨fun stops => noScheme ((stop _).mp stops).1, fun named => absurd named unnamed,
      fun _ lateHere => early (late.mp lateHere)⟩

end Ahead

/-- A new object between two rounds, before there is a login that is not empty. -/
structure Unnamed (t : Url) (b k : ℕ) : Prop extends Fresh t b k where
  unset : t.mLogin.isSet = false
  first : ∀ j, SchemeAt t.mUrl j → j + 3 < b → j = 0

namespace Unnamed

variable {t f : Url} {b k e n i : ℕ}

theorem start {m : List Char} (hm : Sealed m) : Unnamed { mUrl := m } 0 0 where
  toFresh := fresh_start hm
  unset := rfl
  first := fun _ _ before => absurd before (Nat.not_lt_zero _)

theorem scheme (unnamed : Unnamed t b k) (found : nextDelimiter t.mUrl k = some i)
    (ends : EndsProto t.mUrl b i) : Unnamed { t with mProto := .between 0 i } (i + 3) (i + 3) where
  toFresh := unnamed.toFresh.scheme found ends
  unset := unnamed.unset
  first := fun _ scheme before =>
    (unnamed.eq_zero_of_schemeAt found ends scheme (Nat.lt_of_add_lt_add_right before)).1

theorem pass_unset (unnamed : Unnamed t b k) : t.mPass.isSet = false := by
  rw [unnamed.pass_of_login_unset unnamed.unset]
  rfl

/-- **At the end** the text is accounted for unless the protocol lies behind an empty one. -/
theorem accountsFor_of_finished (unnamed : Unnamed t b k) (inside : k ≤ t.mUrl.length)
    (finished : Finished t f k e n) (parsed : Parsed f) :
    AccountsFor f ↔ ¬(SchemeAt t.mUrl 0 ∧ 3 < b) := by
  have behind := unnamed.start_le
  have noPass := unnamed.pass_unset
  have front : t.front b = if 3 < b then t.mUrl.take b else [] := by
    rw [Url.front, unnamed.unset, if_neg Bool.false_ne_true, List.append_nil]
  rw [parsed.accountsFor_iff, unnamed.joined_eq_iff inside finished, front]
  have apart : (3 < b → b ≤ t.hostBegin n) →
      ([f.mProto, f.mLogin, f.mPass, f.mHost, f.mPort, f.mTail].filter
        SubString.isSet).Pairwise fun first second => first.mEnd ≤ second.mBegin := by
    intro begins
    rw [finished.proto, finished.login, finished.pass]
    have others : ([t.mProto, t.mLogin, t.mPass].filter SubString.isSet).Pairwise
        fun first second => first.mEnd ≤ second.mBegin := by
      rw [List.pairwise_filter]
      simp [unnamed.unset, noPass]
    refine finished.apart [t.mProto, t.mLogin, t.mPass] ?_ others
    intro s member isSet
    simp only [List.mem_cons, List.not_mem_nil, or_false] at member
    rcases member with rfl | rfl | rfl
    · have long := unnamed.toScanning.proto_isSet.mp isSet
      have host := begins long
      rw [unnamed.proto_eq, SubString.between_mEnd]
      omega
    · rw [unnamed.unset] at isSet
      cases isSet
    · rw [noPass] at isSet
      cases isSet
  by_cases long : 3 < b
  · have inText : b ≤ t.mUrl.length := Nat.le_trans behind inside
    by_cases atStart : SchemeAt t.mUrl 0
    · refine iff_of_false ?_ (not_not.mpr ⟨atStart, long⟩)
      rintro ⟨same, -⟩
      rw [if_pos long, unnamed.hostBegin_of_scheme noPass long atStart nofun] at same
      have length := congrArg List.length same
      rw [List.length_take, List.length_take] at length
      omega
    · have begins : t.hostBegin n = b := by
        rw [unnamed.hostBegin_of_scheme noPass long (unnamed.scheme_before long)]
        · omega
        · intro j before scheme
          obtain rfl := unnamed.first j scheme (by omega)
          exact atStart scheme
      refine iff_of_true ⟨?_, apart fun _ => Nat.le_of_eq begins.symm⟩ fun late => atStart late.1
      rw [if_pos long, begins]
  · refine iff_of_true ⟨?_, apart fun short => absurd short long⟩ fun late => long late.2
    rw [if_neg long, unnamed.hostBegin_of_none noPass (Nat.not_lt.mp long)]
    rfl

/-- With the login that is not empty the object is named. -/
theorem named_of_login (noPass : t.mPass.isSet = false)
    (next : Fresh { t with mLogin := .between b i } b (i + 1))
    (isSet : (SubString.between b i).isSet = true) :
    Named { t with mLogin := .between b i } b (i + 1) where
  toFresh := next
  isSet := isSet
  place := .inl ⟨rfl, clear_of_le (Nat.le_refl _)⟩
  passPlace := by
    intro passSet
    rw [noPass] at passSet
    cases passSet

/-- What is kept of it is what it is credited for. -/
theorem kept_iff_credited (noPass : t.mPass.isSet = false) (own : t.mLogin.mBegin = b) :
    t.Kept b k ↔ Credited t.mUrl b k := by
  constructor
  · rintro ⟨-, segment, noProto, passSet | pass⟩
    · rw [noPass] at passSet
      cases passSet
    · exact ⟨segment, noProto, pass⟩
  · rintro ⟨segment, noProto, pass⟩
    exact ⟨own, segment, noProto, .inr pass⟩

/-- **Before there is a login** the text is accounted for exactly when what is ahead says so. -/
theorem accountsFor_iff (unnamed : Unnamed t b k) (inside : k < t.mUrl.length)
    (ended : Ends (body false) (t, k) (.ok f)) : AccountsFor f ↔ Tells t.mUrl b k := by
  have hm := unnamed.isSealed
  have parsed := unnamed.toFresh.parsed (Nat.le_of_lt inside) ended
  induction rest : t.mUrl.length - k using Nat.strongRecOn generalizing t b k with
  | _ rest ih =>
      subst rest
      obtain ⟨i, found⟩ := hm.exists_delimiter inside
      have ahead := (nextDelimiter_eq_some.mp found).1
      cases delimiter_of_next b found with
      | scheme ends =>
          have bound := ends.lt_length
          rw [unnamed.toScanning.ends_of_scheme found ends] at ended
          rcases Nat.lt_or_ge (i + 3) t.mUrl.length with more | stops
          · have later := unnamed.scheme found ends
            exact (ih (t.mUrl.length - (i + 3)) (by omega) later more ended hm rfl).trans
              (tells_of_scheme unnamed.toScanning found ends (Nat.ne_of_lt more)).symm
          · obtain rfl := Except.ok.inj ((ends_of_end (u := { t with mProto := .between 0 i })
              stops).mp ended)
            refine iff_of_false (unnamed.not_accountsFor_of_stop found (by omega) parsed) ?_
            intro tells
            exact tells.ended (ahead_of_stop found ends (by omega)).2.2
      | port n begins =>
          rw [unnamed.accountsFor_of_finished (Nat.le_of_lt inside)
            (unnamed.finished_port found begins ended) parsed,
            tells_of_stop (fun _ => finds_of_port found begins) begins.inName
              fun login => login.noPort n begins.portAt]
      | login ends =>
          have bound := hm.succ_lt_length ends.colon (by decide)
          obtain ⟨unset, later⟩ := unnamed.accepted_login found ends ended
          have next := unnamed.next_login found ends unset
          by_cases long : b < i
          · have isSet : (SubString.between b i).isSet = true := SubString.isSet_between.mpr long
            have noPass : t.mPass.isSet = false := unnamed.pass_unset
            rw [tells_of_login found ends long
              (next.not_asksLogin isSet (Nat.le_of_lt bound) later),
              (named_of_login noPass next isSet).accountsFor_iff bound later]
            exact kept_iff_credited noPass rfl
          · have unset : (SubString.between b i).isSet = false := by
              rw [← Bool.not_eq_true, SubString.isSet_between]
              exact long
            have again : Unnamed { t with mLogin := .between b i } b (i + 1) :=
              { next with unset, first := unnamed.first }
            exact (ih (t.mUrl.length - (i + 1)) (by omega) again bound later hm rfl).trans
              (tells_of_empty_login found ends long).symm
      | atSign here =>
          obtain ⟨-, isSet, -⟩ := unnamed.accepted_at found here ended
          rw [unnamed.unset] at isSet
          cases isSet
      | slash here =>
          rw [unnamed.accountsFor_of_finished (Nat.le_of_lt inside)
            (unnamed.finished_slash found here ended) parsed,
            tells_of_stop (fun _ => finds_of_slash found here) (not_endsProto_of_slash here)
              fun login => login.not_slash here]

end Unnamed

/-- **When a parse accounts for the text**: after a parse by a new object, the components joined
give the text, and are apart and in order, exactly when the text, with its sentinel, does not end
behind a protocol, its login is followed by a password, belongs to the last segment and is not
behind an empty protocol, and without a login no protocol lies behind an empty one. -/
theorem accounts_for_the_text_iff {url : List Char} (fits : url.length < maxSize) {f : Url}
    (made : Constructs false url (.ok f)) : AccountsFor f ↔ Tells (url ++ ['/']) 0 0 :=
  (Unnamed.start (sealed_append fits)).accountsFor_iff (by simp) made

/-- A new `Url("u:w@h")`. -/
def loggedIn : Url where
  mUrl := ['u', ':', 'w', '@', 'h', '/']
  mLogin := .between 0 1
  mPass := .between 2 3
  mHost := .between 4 5
  mTail := .between 6 6
  mValid := true

theorem accounts_for_the_text_iff_logged_in :
    Constructs false ['u', ':', 'w', '@', 'h'] (.ok loggedIn) ∧ AccountsFor loggedIn ∧
      Tells ['u', ':', 'w', '@', 'h', '/'] 0 0 := by
  have made : Constructs false ['u', ':', 'w', '@', 'h'] (.ok loggedIn) := ⟨3, by decide +kernel⟩
  have accounts : AccountsFor loggedIn :=
    ⟨⟨[], ['u'], ['w'], ['h'], [], [], rfl, rfl, rfl, rfl, rfl, rfl, rfl⟩, by decide⟩
  exact ⟨made, accounts, (accounts_for_the_text_iff (by decide) made).mp accounts⟩

/-- A new `Url("a:b")`. -/
def loginOnly : Url where
  mUrl := ['a', ':', 'b', '/']
  mLogin := .between 0 1
  mHost := .between 0 3
  mTail := .between 4 4
  mValid := true

/-- The login `a` is also in the host `a:b`. -/
theorem login_is_also_in_host : Constructs false ['a', ':', 'b'] (.ok loginOnly) ∧
    loginOnly.isValid = true ∧ loginOnly.login = .ok ['a'] ∧
    loginOnly.host = .ok ['a', ':', 'b'] ∧ ¬AccountsFor loginOnly := by
  refine ⟨⟨2, by decide +kernel⟩, rfl, rfl, rfl, ?_⟩
  intro accounts
  exact absurd accounts.apart (by decide)

end Url

end Jasl
