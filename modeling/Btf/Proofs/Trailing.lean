import Btf.Proofs.Faults
import Btf.Proofs.InStep

/-!
# Bytes behind a blob

A blob is followed by further bytes. Every word and every string that is found in the blob is found in
the longer one too, so that the two are read in step until a read reaches beyond the end of the first.

* `Source.slice_of_append`, `Source.HasString.of_append`: what stands in a blob stands in a longer one;
* `steady_append`: words, strings and jumps are read in step;
* **`decode_append`**: a blob that is not refused for its end is decoded as any longer one.
-/

namespace Btf

namespace Source

variable {s s' : Source} {more : Bytes} {i : Nat} {bs : List UInt8}

theorem size_of_append (h : s'.bytes = s.bytes ++ more) :
    s'.bytes.size = s.bytes.size + more.size := by
  rw [h, Array.size_append]

/-- What stands in a blob stands in a longer one. -/
theorem slice_of_append (h : s'.bytes = s.bytes ++ more) {n : Nat} (hin : i + n ≤ s.bytes.size) :
    s'.slice i n = s.slice i n := by
  have hlist : s.bytes.toList.length = s.bytes.size := Array.length_toList
  rw [slice_eq, slice_eq, h, Array.toList_append, List.drop_append_of_le_length (by omega),
    List.take_append_of_le_length (by rw [List.length_drop]; omega)]

/-- A string and its end are bytes of the blob. -/
theorem HasString.inside (h : s.HasString i bs) : i + bs.length + 1 ≤ s.bytes.size := by
  have hlist : s.bytes.toList.length = s.bytes.size := Array.length_toList
  have hlength := congrArg List.length h.1
  rw [slice_eq, List.length_take, List.length_drop, hlist, List.length_append,
    List.length_singleton] at hlength
  omega

theorem HasString.of_append (h : s'.bytes = s.bytes ++ more) (hbs : s.HasString i bs) :
    s'.HasString i bs := by
  have hin := hbs.inside
  exact ⟨(slice_of_append h (by omega)).trans hbs.1, hbs.2⟩

end Source

/-- **A longer blob is read in step** until a read fails for the end of the first one. -/
theorem steady_append {s s' : Source} {more : Bytes} (h : s'.bytes = s.bytes ++ more) :
    Steady (fun c c' => c = c' ∧ c.IsOpen) (Fault.HasCode .ioError) s s' := by
  have hsize := Source.size_of_append h
  refine ⟨?_, ?_, fun width => ?_, fun target => ?_, fun address => ?_⟩
  · rintro c _ ⟨rfl, -⟩
    rfl
  · rintro c _ order ⟨rfl, hopen⟩
    exact ⟨rfl, hopen⟩
  · refine .of_outcome (Read.consumes_word width) ?_ ?_
    · rintro k c _ ⟨rfl, hopen⟩
      exact ⟨rfl, hopen.skip width⟩
    · rintro k c _ ⟨rfl, hopen⟩
      by_cases hin : c.offset + width ≤ s.bytes.size
      · left
        rw [Read.outcome_word hopen hin, Read.outcome_word hopen (by omega),
          Source.slice_of_append h hin]
      · right
        exact ⟨_, Read.outcome_word_past (by omega), _, rfl, rfl⟩
  · rintro k c _ ⟨rfl, hopen⟩
    rw [Read.seek, Read.run_ofRun, Read.run_ofRun]
    by_cases hout : target < 0 ∨ (s.bytes.size : Int) < target
    · rw [if_pos hout]
      exact .stop ⟨_, rfl, rfl⟩
    · rw [if_neg hout, if_neg (by omega)]
      exact .done ⟨rfl, hopen⟩
  · refine .of_outcome (Read.consumes_bytesAt address) ?_ ?_
    · rintro k c _ ⟨rfl, hopen⟩
      exact ⟨rfl, hopen⟩
    · rintro k c _ ⟨rfl, hopen⟩
      cases hbytes : (Read.bytesAt address).outcome s c with
      | ok bs =>
        left
        obtain ⟨i, hi, hbs⟩ := (Read.outcome_bytesAt_ok_iff hopen).mp hbytes
        exact (Read.outcome_bytesAt_ok_iff hopen).mpr ⟨i, hi, hbs.of_append h⟩
      | error e =>
        right
        refine ⟨e, rfl, ?_⟩
        rw [Read.outcome_bytesAt hopen] at hbytes
        split at hbytes
        · cases hbytes
          exact ⟨_, rfl, rfl⟩
        · split at hbytes
          · cases hbytes
            exact ⟨_, rfl, rfl⟩
          · cases hbytes

/-- **Bytes behind a blob do not matter**: what a blob is decoded to, or refused for, is the same with
any further bytes, unless it is refused for its end. -/
theorem decode_append {settings : Settings} {b : Bytes}
    (h : ∀ fault, (settings.decode (.memory b)).outcome = .error (.blob fault) →
      ¬fault.HasCode .ioError) (more : Bytes) :
    (settings.decode (.memory (b ++ more))).outcome = (settings.decode (.memory b)).outcome := by
  cases hmake : settings.make.outcome with
  | error e =>
    rw [Settings.outcome_decode_of_refused hmake, Settings.outcome_decode_of_refused hmake]
  | ok config =>
    have hdecode := Settings.outcome_decode_of_make hmake
    have hsteady : Steady _ _ { bytes := b } { bytes := b ++ more } := steady_append rfl
    rw [hdecode, Config.table_memory] at h ⊢
    rw [hdecode, Config.table_memory]
    exact hsteady.outcome_tableFrom config ⟨rfl, Cursor.isOpen_start⟩ h

/-- A blob whose only entry is of no kind, and which breaks off behind it. -/
def brokenOff : Bytes := #[
  0x9F, 0xEB, 1, 0, 24, 0, 0, 0, 0, 0, 0, 0, 64, 0, 0, 0, 64, 0, 0, 0, 0, 0, 0, 0,
  0, 0, 0, 0, 0, 0, 0, 0, 0, 0, 0, 0]

theorem decode_append_brokenOff :
    (∀ fault, ((Settings.value .null).decode (.memory brokenOff)).outcome = .error (.blob fault) →
      ¬fault.HasCode .ioError) ∧
    ∀ more, ((Settings.value .null).decode (.memory (brokenOff ++ more))).outcome =
      .error (.blob (.invalid 24 ⟨0, 0, 0, false, 0⟩ (.unsupportedKind 0))) := by
  have hrefused : ((Settings.value .null).decode (.memory brokenOff)).outcome =
      .error (.blob (.invalid 24 ⟨0, 0, 0, false, 0⟩ (.unsupportedKind 0))) :=
    refusal?_eq_some_iff.mp (by decide +kernel)
  have hcode : ∀ fault, ((Settings.value .null).decode (.memory brokenOff)).outcome =
      .error (.blob fault) → ¬fault.HasCode .ioError := by
    intro fault hfault
    rw [hrefused] at hfault
    cases hfault
    rintro ⟨r, ⟨⟩, ⟨⟩⟩
  exact ⟨hcode, fun more => (decode_append hcode more).trans hrefused⟩

end Btf
