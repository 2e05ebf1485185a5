import ImmutableLedger.Adapters.CoveredContent
import ImmutableLedger.Json.Jcs

/-! The bytes of the CPEX adapter and RFC 8785.

The adapter writes the covered event with the compact layout of Python. That is the canonical form
of the RFC as long as both show every integer alike and bring the keys of every object into the
same order.
-/

set_option autoImplicit false

namespace ImmutableLedger.Cpex

open Python Json

theorem canonicalizeContent_jcs {F : Type} [Interpreter F] [Sha256] (float : F → Str)
    {event : Dict (Value F)} (distinct : (Value.dict event).Distinct) {bytes : Bytes}
    {inputHash : String} (accepted : canonicalizeContent (.dict event) = .ok (bytes, inputHash)) :
    jcs float (.dict (strip event)) = some bytes ↔ Agrees (.dict (strip event)) := by
  obtain ⟨floatless, -, encoded, -⟩ := (canonicalizeContent_ok distinct.keys).mp accepted
  exact jcs_eq_some float (strip_distinct distinct) (strip_floatless floatless) encoded

theorem unsignedEvent_jcs :
    letI := Fips180.sha256
    canonicalizeContent (.dict unsignedEvent) =
        .ok (asBytes "\x7b\"x\":1\x7d", sha256Hex (asBytes "\x7b\"x\":1\x7d")) ∧
      jcs Tenths.text (.dict (strip unsignedEvent)) = some (asBytes "\x7b\"x\":1\x7d") := by
  let := Fips180.sha256
  have accepted : canonicalizeContent (.dict unsignedEvent) =
      .ok (asBytes "\x7b\"x\":1\x7d", sha256Hex (asBytes "\x7b\"x\":1\x7d")) := rfl
  have parts : (Value.dict (strip unsignedEvent)).parts = [.dict unsignedEvent, .int 1] := rfl
  have agrees : Agrees (.dict (strip unsignedEvent)) := by
    apply agrees_of_basic <;> rw [parts]
    · intro number part
      obtain rfl : number = 1 := by simpa using part
      decide
    · intro members part
      obtain rfl : members = unsignedEvent := by simpa using part
      decide
  exact ⟨accepted, (canonicalizeContent_jcs Tenths.text (by decide) accepted).mpr agrees⟩

/-- Two keys that code points and UTF-16 units bring into different orders. -/
def astralEvent : Dict (Value Tenths) :=
  [([.char (Char.ofNat 0xE000)], .int 1), ([.char (Char.ofNat 0x10000)], .int 2)]

theorem astralEvent_not_jcs :
    letI := Fips180.sha256
    ∃ bytes inputHash, canonicalizeContent (.dict astralEvent) = .ok (bytes, inputHash) ∧
      jcs Tenths.text (.dict (strip astralEvent)) ≠ some bytes := by
  let := Fips180.sha256
  refine ⟨_, _, rfl, fun same => ?_⟩
  have distinct : (Value.dict (strip astralEvent)).Distinct := by decide
  have floatless := (@rejectNonJcsScalars_ok Tenths _ (str "$") (.dict astralEvent)).mp rfl
  have encoded : (canonical.write (.dict (strip astralEvent))).encode = some _ := rfl
  have agrees := (jcs_eq_some Tenths.text distinct (strip_floatless floatless) encoded).mp same
  have alike : OrderedAlike (Dict.keys (strip astralEvent)) :=
    agrees.keys _ (Value.self_mem_parts _)
  revert alike
  decide

end ImmutableLedger.Cpex
