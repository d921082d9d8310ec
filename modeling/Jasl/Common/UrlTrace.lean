import Jasl.Common.UrlCovers
import Jasl.Library.Traced

/-!
# What the parser of URLs does on its way

The functions of the parser once more, each reporting what it does with the text: the
ranges that it sets, the indexes whose predecessor it takes, and the `assert(false)` it
comes to. Without the reports they are the functions of the parser
(`body_result`).
-/

set_option autoImplicit false

namespace Jasl

open Library StdString

namespace Url

/-- What is reported. -/
inductive Event where
  /-- `SubString::set` of a component. -/
  | set (first last : ℕ)
  /-- `index - 1` is an index into the text. -/
  | previous (index : ℕ)
  /-- `assert(false)`. -/
  | assertFalse
deriving DecidableEq, Repr

namespace Trace

/-- A part of the parser that reports. -/
abbrev Reports (α : Type) := Traced Event StringFault α

/-- `SubString::set`. -/
def set (ndebug : Bool) (first last : ℕ) : Reports SubString :=
  .report (.set first last) (.silent (SubString.set ndebug first last))

/-- `Url::fill_proto`. -/
def fillProto (ndebug : Bool) (u : Url) (offset : ℕ) : Reports (Option (Url × ℕ)) :=
  if u.mProto.isSet then .silent (.ok none)
  else if u.mUrl.length ≤ (offset + 2) % 2 ^ 64 then .silent (.ok none)
  else if u.mUrl[offset]? = some ':' ∧ u.mUrl[offset + 1]? = some '/' ∧
      u.mUrl[offset + 2]? = some '/' then
    (set ndebug 0 offset).map fun proto => some ({ u with mProto := proto }, offset + 3)
  else .silent (.ok none)

/-- `Url::fill_host`. -/
def fillHost (ndebug : Bool) (u : Url) (offset : ℕ) : Reports Url :=
  let filled := (set ndebug (u.hostBegin offset) (u.hostEnd offset)).map fun host =>
    { u with mHost := host }
  if u.mPass.isSet then .report (.previous offset) filled else filled

/-- `Url::fill_port`. -/
def fillPort (ndebug : Bool) (u : Url) (offset : ℕ) : Reports (Option (Url × ℕ)) :=
  if u.mPort.isSet then .silent (.ok none)
  else
    let notADigit := findFirstNotOf u.mUrl digits (offset + 1)
    if (notADigit = npos ∨ u.mUrl[notADigit]? = some '/') ∧ 1 < notADigit - offset then
      (set ndebug (offset + 1) (if notADigit = npos then u.mUrl.length else notADigit)).bind
        fun port => (fillHost ndebug { u with mPort := port } notADigit).map
          fun u => some (u, notADigit)
    else .silent (.ok none)

/-- `Url::fill_login`. -/
def fillLogin (ndebug : Bool) (u : Url) (offset : ℕ) : Reports (Option (Url × ℕ)) :=
  if u.mLogin.isSet then .silent (.ok none)
  else
    let delim := rfind u.mUrl '/' offset
    if delim = npos then
      (set ndebug 0 offset).map fun login => some ({ u with mLogin := login }, offset + 1)
    else
      .report (.previous delim) <|
        match u.mUrl[(delim + npos) % 2 ^ 64]? with
        | none => .silent (.error .outOfRange)
        | some c =>
            if c = '/' then
              (set ndebug (delim + 1) offset).map fun login =>
                some ({ u with mLogin := login }, offset + 1)
            else .silent (.ok none)

/-- `Url::fill_pass`. -/
def fillPass (ndebug : Bool) (u : Url) (offset : ℕ) : Reports (Option (Url × ℕ)) :=
  if u.mPass.isSet then .silent (.ok none)
  else if !u.mLogin.isSet then .silent (.ok none)
  else
    let colon := rfind u.mUrl ':' ((offset + npos) % 2 ^ 64)
    .report (.previous offset) <|
      (set ndebug ((colon + 1) % 2 ^ 64) offset).map fun pass =>
        some ({ u with mPass := pass }, offset + 1)

/-- `Url::fill_tail`. -/
def fillTail (ndebug : Bool) (u : Url) (offset : ℕ) : Reports (Option (Url × ℕ)) :=
  (fillHost ndebug u offset).bind fun u =>
    (set ndebug (offset + 1) u.mUrl.length).map fun tail =>
      some ({ u with mTail := tail }, offset)

/-- A round of the loop: the next round or the object that is returned. -/
abbrev Turn := Reports (Url × ℕ ⊕ Url)

/-- A fill function in a condition. -/
def tried (filled : Reports (Option (Url × ℕ))) (otherwise : Turn) : Turn :=
  filled.bind fun
    | some next => .silent (.ok (.inl next))
    | none => otherwise

/-- `assert(false)`. -/
def assertFalse (ndebug : Bool) (next : Turn) : Turn :=
  .report .assertFalse (if ndebug then next else .silent (.error .assertion))

/-- `default:`. -/
def caseDefault (ndebug : Bool) (u : Url) (offset : ℕ) : Turn :=
  assertFalse ndebug (.silent (.ok (.inl (u, offset))))

/-- `case '@':`. -/
def caseAt (ndebug : Bool) (u : Url) (offset : ℕ) : Turn :=
  tried (fillPass ndebug u offset) (assertFalse ndebug (caseDefault ndebug u offset))

/-- `case '/':`. -/
def caseSlash (ndebug : Bool) (u : Url) (offset : ℕ) : Turn :=
  (fillTail ndebug u offset).bind fun
    | some (u, _) => .silent (.ok (.inr { u with mValid := true }))
    | none => assertFalse ndebug (caseAt ndebug u offset)

/-- `case ':':`. -/
def caseColon (ndebug : Bool) (u : Url) (offset : ℕ) : Turn :=
  tried (fillProto ndebug u offset) <|
    tried (fillPort ndebug u offset) <|
      tried (fillLogin ndebug u offset) <|
        assertFalse ndebug (caseSlash ndebug u offset)

/-- The loop of `Url::parse`: its condition and a round. -/
def body (ndebug : Bool) : Url × ℕ → Turn
  | (u, offset) =>
      if offset < u.mUrl.length then
        let offset := findFirstOf u.mUrl [':', '/', '@'] offset
        if offset = npos then .silent (.ok (.inr u))
        else if u.mUrl[offset]? = some ':' then caseColon ndebug u offset
        else if u.mUrl[offset]? = some '/' then caseSlash ndebug u offset
        else if u.mUrl[offset]? = some '@' then caseAt ndebug u offset
        else caseDefault ndebug u offset
      else .silent (.ok (.inr { u with mValid := true }))

/-! ## Without the reports -/

/-- How the loop goes on after a round. -/
def round : Except StringFault (Url × ℕ ⊕ Url) → Round
  | .error fault => .inr (.error fault)
  | .ok (.inl next) => .inl next
  | .ok (.inr u) => .inr (.ok u)

section Rounds

variable {result : Except StringFault (Url × ℕ ⊕ Url)}

theorem round_eq_inl {next : Url × ℕ} : round result = .inl next ↔ result = .ok (.inl next) := by
  rcases result with fault | other | u <;> simp [round]

theorem round_eq_ok {u : Url} : round result = .inr (.ok u) ↔ result = .ok (.inr u) := by
  rcases result with fault | other | u <;> simp [round]

theorem round_eq_error {fault : StringFault} :
    round result = .inr (.error fault) ↔ result = .error fault := by
  rcases result with fault | other | u <;> simp [round]

end Rounds

section Results

variable {ndebug : Bool} {u : Url} {offset : ℕ}

@[simp] theorem set_result (first last : ℕ) :
    (set ndebug first last).result = SubString.set ndebug first last := rfl

@[simp] theorem fillProto_result :
    (fillProto ndebug u offset).result = Url.fillProto ndebug u offset := by
  rw [fillProto, Url.fillProto]
  split_ifs <;> rfl

@[simp] theorem fillHost_result :
    (fillHost ndebug u offset).result = Url.fillHost ndebug u offset := by
  simp only [fillHost, apply_ite Traced.result, Traced.result_report, Traced.result_map,
    set_result, ite_self]
  rfl

@[simp] theorem fillPort_result :
    (fillPort ndebug u offset).result = Url.fillPort ndebug u offset := by
  simp only [fillPort, Url.fillPort, apply_ite Traced.result, Traced.result_silent,
    Traced.result_bind, Traced.result_map, set_result, fillHost_result]

@[simp] theorem fillLogin_result :
    (fillLogin ndebug u offset).result = Url.fillLogin ndebug u offset := by
  simp only [fillLogin, Url.fillLogin, apply_ite Traced.result, Traced.result_silent,
    Traced.result_report, Traced.result_map, set_result]
  cases u.mUrl[(rfind u.mUrl '/' offset + npos) % 2 ^ 64]? with
  | none => rfl
  | some c =>
      simp only [apply_ite Traced.result, Traced.result_silent, Traced.result_map, set_result]

@[simp] theorem fillPass_result :
    (fillPass ndebug u offset).result = Url.fillPass ndebug u offset := by
  simp only [fillPass, Url.fillPass, apply_ite Traced.result, Traced.result_silent,
    Traced.result_report, Traced.result_map, set_result]

@[simp] theorem fillTail_result :
    (fillTail ndebug u offset).result = Url.fillTail ndebug u offset := by
  simp only [fillTail, Url.fillTail, Traced.result_bind, Traced.result_map, fillHost_result,
    set_result]

theorem tried_result {filled : Reports (Option (Url × ℕ))} {otherwise : Turn} :
    round (tried filled otherwise).result = Url.tried filled.result (round otherwise.result) := by
  rw [tried, Traced.result_bind]
  rcases filled.result with fault | _ | next <;> rfl

theorem assertFalse_result {next : Turn} :
    round (assertFalse ndebug next).result = Url.assertFalse ndebug (round next.result) := by
  cases ndebug <;> rfl

theorem caseDefault_result :
    round (caseDefault ndebug u offset).result = Url.caseDefault ndebug u offset :=
  assertFalse_result

theorem caseAt_result : round (caseAt ndebug u offset).result = Url.caseAt ndebug u offset := by
  rw [caseAt, tried_result, assertFalse_result, caseDefault_result, fillPass_result]
  rfl

theorem caseSlash_result :
    round (caseSlash ndebug u offset).result = Url.caseSlash ndebug u offset := by
  rw [caseSlash, Url.caseSlash, Traced.result_bind, fillTail_result]
  rcases Url.fillTail ndebug u offset with fault | _ | next
  · rfl
  · exact assertFalse_result.trans (congrArg (Url.assertFalse ndebug) caseAt_result)
  · rfl

theorem caseColon_result :
    round (caseColon ndebug u offset).result = Url.caseColon ndebug u offset := by
  rw [caseColon, tried_result, tried_result, tried_result, assertFalse_result, caseSlash_result,
    fillProto_result, fillPort_result, fillLogin_result]
  rfl

/-- **A round does what it does in the parser.** -/
theorem body_result (state : Url × ℕ) :
    round (body ndebug state).result = Url.body ndebug state := by
  obtain ⟨u, offset⟩ := state
  simp only [body, Url.body]
  split_ifs
  · rfl
  · exact caseColon_result
  · exact caseSlash_result
  · exact caseAt_result
  · exact caseDefault_result
  · rfl

end Results

end Trace

end Url

end Jasl
