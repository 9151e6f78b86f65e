import ForwardCursor.Proofs.Decoder.Accounting
import ForwardCursor.Proofs.Reader.Filling
import ForwardCursor.Proofs.Utf8.Boundary

namespace ForwardCursor

/-!
# When a decoder reads

The bytes that a decoder has received and not decoded are in two places: those that it keeps,
and those in the buffer of its reader.  Whether a request reads is up to all of them together.
If they start with a character, or with a malformed part that has met its end, the request is
answered for that part and the device is left alone.  If they are undecided, the buffer is
emptied and a read follows.

A stray byte is undecided as long as nothing is behind it.  It begins no character, so it could
be reported at once, but it is treated like bytes that do begin one.  A read is made for it, and
if that read fails, the fault is reported before the byte.

A fault therefore finds the buffer empty.  Its offset counts the bytes that have been decoded,
so it is the number of those delivered before the fault only if none are kept.
-/

namespace Reader

theorem device_peek_of_buffer {reader : Reader} (held : reader.buffer ≠ []) :
    reader.peek.2.device = reader.device := by
  rw [← device_pull, device_pull_of_buffer held]

theorem reads_lt_peek_of_empty {reader : Reader} (empty : reader.buffer = []) :
    reader.device.reads < reader.peek.2.device.reads := by
  rw [← device_pull, reads_pull_of_empty empty]
  omega

theorem reads_le_peek (reader : Reader) : reader.device.reads ≤ reader.peek.2.device.reads := by
  by_cases empty : reader.buffer = []
  · exact Nat.le_of_lt (reads_lt_peek_of_empty empty)
  · exact Nat.le_of_eq (congrArg Device.reads (device_peek_of_buffer empty).symm)

theorem buffer_of_peek_error {reader after : Reader} {fault : Fault}
    (failed : reader.peek = (.error fault, after)) : after.buffer = [] := by
  by_cases empty : reader.buffer = []
  · rw [peek_of_empty empty] at failed
    split at failed
    · cases failed
    · cases failed
      rfl
  · rcases List.exists_cons_of_ne_nil empty with ⟨byte, rest, held⟩
    cases failed.symm.trans (peek_of_buffer held)

end Reader

namespace Decoder

open Utf8

/-- The bytes received and not decoded. -/
def held (decoder : Decoder) : List UInt8 := decoder.pending ++ decoder.reader.buffer

/-! ## Passes and reads -/

/-- The decoder that a pass leaves, with an answer or for the next pass. -/
def afterPass (decoder : Decoder) : Decoder :=
  match decoder.pass with
  | .inl (_, after) => after
  | .inr next => next

/-- A pass reports a fault if its look at the reader fails, and only then.  All of its reads are
made by this look. -/
theorem pass_cases (decoder : Decoder) :
    (∃ fault reader, decoder.reader.peek = (.error fault, reader) ∧
      decoder.pass = .inl (.error (.read fault decoder.offset), { decoder with reader })) ∨
    (∃ answer after, decoder.pass = .inl (answer, after) ∧ fault? answer = none ∧
      after.reader.device = decoder.reader.peek.2.device) ∨
    (∃ next, decoder.pass = .inr next ∧
      next.reader.device = decoder.reader.peek.2.device) := by
  rcases seen : decoder.reader.peek with ⟨found, reader⟩
  match found with
  | .error fault =>
      simp only [pass, seen]
      exact Or.inl ⟨fault, reader, rfl, rfl⟩
  | .ok none =>
      simp only [pass, seen, reject_eq]
      cases decoder.pending.isEmpty with
      | true => exact Or.inr (Or.inl ⟨_, _, rfl, rfl, rfl⟩)
      | false => exact Or.inr (Or.inl ⟨_, _, rfl, fault?_answer _ _ _, rfl⟩)
  | .ok (some byte) =>
      simp only [pass, seen, reject_eq]
      cases decoder.pending.isEmpty with
      | true =>
          simp only [if_true]
          cases front reader.buffer with
          | scalar character size => exact Or.inr (Or.inl ⟨_, _, rfl, rfl, rfl⟩)
          | malformed size =>
              by_cases whole : size = reader.buffer.length
              · simp only [if_pos whole]
                exact Or.inr (Or.inr ⟨_, rfl, rfl⟩)
              · simp only [if_neg whole]
                exact Or.inr (Or.inl ⟨_, _, rfl, fault?_answer _ _ _, rfl⟩)
      | false =>
          simp only [Bool.false_eq_true, if_false]
          cases front (decoder.pending ++ [byte]) with
          | scalar character size => exact Or.inr (Or.inl ⟨_, _, rfl, rfl, rfl⟩)
          | malformed size =>
              by_cases short : size ≤ decoder.pending.length
              · simp only [if_pos short]
                exact Or.inr (Or.inl ⟨_, _, rfl, fault?_answer _ _ _, rfl⟩)
              · simp only [if_neg short]
                exact Or.inr (Or.inr ⟨_, rfl, rfl⟩)

theorem device_afterPass (decoder : Decoder) :
    decoder.afterPass.reader.device = decoder.reader.peek.2.device := by
  unfold afterPass
  rcases decoder.pass_cases with ⟨fault, reader, seen, passed⟩ | ⟨answer, after, passed, _, same⟩ |
    ⟨next, passed, same⟩
  · rw [passed, seen]
  · rw [passed]
    exact same
  · rw [passed]
    exact same

theorem reads_le_afterPass (decoder : Decoder) :
    decoder.reader.device.reads ≤ decoder.afterPass.reader.device.reads := by
  rw [device_afterPass]
  exact decoder.reader.reads_le_peek

/-! ## The passes of a request -/

theorem Keeps.trans {before middle after : Decoder} {earlier taken : List UInt8}
    (first : Keeps before earlier middle) (second : Keeps middle taken after) :
    Keeps before (earlier ++ taken) after where
  bytes_eq := by rw [first.bytes_eq, second.bytes_eq, List.append_assoc]
  pending_eq := by rw [second.pending_eq, first.pending_eq, List.append_assoc]
  offset_eq := second.offset_eq.trans first.offset_eq
  policy_eq := second.policy_eq.trans first.policy_eq
  unfinished := second.unfinished

/-- Passes without an answer lead from one decoder to another within the same request. -/
inductive ComesTo : Decoder → Decoder → Prop where
  | refl (decoder : Decoder) : ComesTo decoder decoder
  | pass {start next middle : Decoder} (kept : start.pass = .inr next)
      (later : ComesTo next middle) : ComesTo start middle

namespace ComesTo

variable {start middle : Decoder}

theorem keeps (comes : ComesTo start middle) (unfinished : Unfinished start.pending) :
    ∃ taken, Keeps start taken middle := by
  induction comes with
  | refl decoder => exact ⟨[], rfl, (List.append_nil _).symm, rfl, rfl, unfinished⟩
  | pass kept _ inductionHypothesis =>
      have proceeds := proceeds_pass unfinished
      rw [kept] at proceeds
      cases proceeds with
      | kept _ first =>
          rcases inductionHypothesis first.unfinished with ⟨taken, keeps⟩
          exact ⟨_, first.trans keeps⟩

/-- What is left of the request is the request of the decoder there. -/
theorem decode_eq (comes : ComesTo start middle) : start.decode = middle.decode := by
  induction comes with
  | refl decoder => rfl
  | pass kept _ inductionHypothesis =>
      rw [decode_eq_pass, kept]
      exact inductionHypothesis

/-- The number of reads never goes back. -/
theorem reads_le (comes : ComesTo start middle) :
    start.reader.device.reads ≤ middle.reader.device.reads := by
  induction comes with
  | refl decoder => apply Nat.le_refl
  | @pass start next middle kept _ inductionHypothesis =>
      have first := start.reads_le_afterPass
      rw [afterPass, kept] at first
      exact Nat.le_trans first inductionHypothesis

end ComesTo

/-- The last pass of a request gives the answer. -/
theorem exists_last_pass {count : Nat} {decoder : Decoder}
    {outcome : Except Failure (Option Char) × Decoder}
    (finished : decoder.passes count = some outcome) :
    ∃ last, ComesTo decoder last ∧ last.pass = .inl outcome := by
  induction count generalizing decoder with
  | zero => cases finished
  | succ count inductionHypothesis =>
      rw [passes] at finished
      cases passed : decoder.pass with
      | inl result =>
          rw [passed] at finished
          cases finished
          exact ⟨decoder, .refl decoder, passed⟩
      | inr next =>
          rw [passed] at finished
          rcases inductionHypothesis finished with ⟨last, comes, answered⟩
          exact ⟨last, .pass passed comes, answered⟩

theorem reads_le_decode {decoder : Decoder} (unfinished : Unfinished decoder.pending) :
    decoder.reader.device.reads ≤ decoder.decode.2.reader.device.reads := by
  rcases decode_settles unfinished with ⟨answer, after, taken, decoded, finished, _⟩
  rcases exists_last_pass finished with ⟨last, comes, answered⟩
  have final := last.reads_le_afterPass
  rw [afterPass, answered] at final
  rw [decoded]
  exact Nat.le_trans comes.reads_le final

/-- With an empty buffer the first pass reads. -/
theorem reads_lt_decode_of_empty {decoder : Decoder} (unfinished : Unfinished decoder.pending)
    (empty : decoder.reader.buffer = []) :
    decoder.reader.device.reads < decoder.decode.2.reader.device.reads := by
  have first := Reader.reads_lt_peek_of_empty empty
  have proceeds := proceeds_pass unfinished
  rw [← device_afterPass, afterPass] at first
  rw [decode_eq_pass]
  cases passed : decoder.pass with
  | inl outcome =>
      rw [passed] at first
      exact first
  | inr next =>
      rw [passed] at first proceeds
      cases proceeds with
      | kept _ keeps => exact Nat.lt_of_lt_of_le first (reads_le_decode keeps.unfinished)

/-! ## Decided and undecided bytes -/

/-- What a buffer holds is decided on together with the bytes kept. -/
theorem decode_eq_settle_held {decoder : Decoder} (unfinished : Unfinished decoder.pending)
    (some : decoder.reader.buffer ≠ []) :
    decoder.decode = decoder.settle
      (decoder.reader.consume ((front decoder.held).size - decoder.pending.length)) decoder.held := by
  by_cases empty : decoder.pending = []
  · rcases List.exists_cons_of_ne_nil some with ⟨byte, rest, buffered⟩
    have seen := Reader.peek_of_buffer buffered
    rw [decode_eq_settle_buffer seen empty, held, empty, List.nil_append, List.length_nil,
      Nat.sub_zero]
  · exact decode_eq_settle_pending rfl empty unfinished

/-- Decided bytes are answered for without a read. -/
theorem decode_of_decided {decoder : Decoder} (unfinished : Unfinished decoder.pending)
    (decided : ¬ Unfinished decoder.held) :
    decoder.decode.1 = answer decoder.policy decoder.offset (firstPart decoder.held) ∧
      decoder.decode.2.reader.device = decoder.reader.device := by
  have some : decoder.reader.buffer ≠ [] := by
    intro empty
    apply decided
    rw [held, empty, List.append_nil]
    exact unfinished
  rw [decode_eq_settle_held unfinished some, settle_of_decided decided]
  exact ⟨rfl, rfl⟩

/-- Undecided bytes are all kept, and then a read is made. -/
theorem reads_lt_decode_of_undecided {decoder : Decoder} (unfinished : Unfinished decoder.pending)
    (undecided : Unfinished decoder.held) :
    decoder.reader.device.reads < decoder.decode.2.reader.device.reads := by
  by_cases empty : decoder.reader.buffer = []
  · exact reads_lt_decode_of_empty unfinished empty
  · rw [decode_eq_settle_held unfinished empty, settle_of_unfinished undecided, undecided,
      Front.size, held, List.length_append, Nat.add_sub_cancel_left]
    have emptied : (decoder.reader.consume decoder.reader.buffer.length).buffer = [] :=
      List.drop_length
    exact @reads_lt_decode_of_empty { decoder with
      reader := decoder.reader.consume decoder.reader.buffer.length
      pending := decoder.held } undecided emptied

/-! ## Every pass of every request -/

/-- A pass reads only with an empty buffer, and then all that is held are the bytes kept. -/
theorem undecided_of_read {decoder : Decoder} (unfinished : Unfinished decoder.pending)
    (read : decoder.afterPass.reader.device ≠ decoder.reader.device) : Unfinished decoder.held := by
  have empty : decoder.reader.buffer = [] := by
    by_contra some
    apply read
    rw [device_afterPass, Reader.device_peek_of_buffer some]
  rw [held, empty, List.append_nil]
  exact unfinished

/-- At every place in a request a read is made only if the bytes held are undecided.  From there
on the request reads if and only if they are.  If they are decided, the answer is for their first
part, whatever the device would do next. -/
theorem reads_iff_undecided (device : Device) (capacity : Nat) (policy : Policy) (count : Nat) :
    let before : Decoder :=
      (Source.pulls count ({ reader := .ofDevice device capacity, policy } : Decoder)).2
    let answer := (Source.pull before).1
    let after := (Source.pull before).2
    ∀ middle : Decoder, ComesTo before middle →
      (middle.afterPass.reader.device ≠ middle.reader.device → Undecided middle.held) ∧
      (middle.reader.device.reads < after.reader.device.reads ↔ Undecided middle.held) ∧
      (¬ Undecided middle.held →
        answer = Decoder.answer policy before.offset (firstPart middle.held) ∧
          after.reader.device = middle.reader.device) := by
  intro before answer after middle comes
  have accounted : Accounted device policy before :=
    (Accounted.ofDevice device capacity policy).pulls count
  rcases comes.keeps accounted.unfinished with ⟨taken, keeps⟩
  have answered : answer = middle.decode.1 := congrArg Prod.fst comes.decode_eq
  have leaves : after = middle.decode.2 := congrArg Prod.snd comes.decode_eq
  rw [← unfinished_iff_undecided, answered, leaves]
  refine ⟨undecided_of_read keeps.unfinished, ?_, ?_⟩
  · constructor
    · intro further
      by_contra decided
      rw [(decode_of_decided keeps.unfinished decided).2] at further
      exact Nat.lt_irrefl _ further
    · exact reads_lt_decode_of_undecided keeps.unfinished
  · intro decided
    rw [← accounted.policy_eq, ← keeps.policy_eq, ← keeps.offset_eq]
    exact decode_of_decided keeps.unfinished decided

/-- A sequence that is broken by a letter in the second delivery. -/
def brokenByLetter : Device := ⟨[.data [0xE2], .data [0x82, 0x41], .fault ⟨.other, .standard⟩], 0⟩

/-- The letter decides, and the request does not get to the fault. -/
theorem reads_iff_undecided_brokenByLetter :
    let start : Decoder := { reader := .ofDevice brokenByLetter 4 }
    let middle : Decoder :=
      { reader := ⟨4, [0x41], ⟨[.fault ⟨.other, .standard⟩], 2⟩⟩, pending := [0xE2, 0x82] }
    ComesTo start middle ∧ ¬ Undecided middle.held ∧
      (Source.pull start).1 = .error (.malformed ⟨[0xE2, 0x82], 0⟩) ∧
      (Source.pull start).2.reader.device = middle.reader.device := by
  intro start middle
  have comes : ComesTo start middle := .pass rfl (.pass rfl (.refl middle))
  have decided : ¬ Undecided middle.held := by
    rw [← unfinished_iff_undecided]
    exact nofun
  rcases (reads_iff_undecided brokenByLetter 4 .strict 0 middle comes).2.2 decided with
    ⟨answered, left⟩
  exact ⟨comes, decided, answered, left⟩

/-- A byte that no character starts with, and then a fault. -/
def strayByte : Device := ⟨[.data [0xFF], .fault ⟨.other, .standard⟩], 0⟩

/-- The byte is not the beginning of a character, but a read is made with it at hand.  The fault
of that read is reported first. -/
theorem reads_behind_strayByte :
    let start : Decoder := { reader := .ofDevice strayByte 8 }
    ∃ middle : Decoder, ComesTo start middle ∧
      middle.afterPass.reader.device ≠ middle.reader.device ∧
      middle.held = [0xFF] ∧ ¬ Viable [0xFF] ∧
      (Source.pulls 2 start).1 =
        [.error (.read ⟨.other, .standard⟩ 0), .error (.malformed ⟨[0xFF], 0⟩)] := by
  intro start
  let middle : Decoder :=
    { reader := ⟨8, [], ⟨[.fault ⟨.other, .standard⟩], 1⟩⟩, pending := [0xFF] }
  let failed : Decoder := { reader := ⟨8, [], ⟨[], 2⟩⟩, pending := [0xFF] }
  have comes : ComesTo start middle := .pass rfl (.refl middle)
  have first : start.decode = (.error (.read ⟨.other, .standard⟩ 0), failed) :=
    @decode_of_passes 2 _ _ rfl
  have second : failed.decode.1 = .error (.malformed ⟨[0xFF], 0⟩) :=
    congrArg Prod.fst (@decode_of_passes 1 failed _ rfl)
  have unviable : ¬ Viable [0xFF] := by
    rintro ⟨character, more, _, written⟩
    exact stray_of_owed?_none rfl character ⟨more, written.symm⟩
  refine ⟨middle, comes, by decide, rfl, unviable, ?_⟩
  rw [Source.pulls_succ, pull_eq, first, Source.pulls_succ, pull_eq, second, Source.pulls_zero]

/-! ## Where a fault is reported -/

/-- A fault is met with an empty buffer. -/
theorem buffer_of_pass_fault {decoder after : Decoder} {answer : Except Failure (Option Char)}
    {fault : Fault} (reported : fault? answer = some fault)
    (answered : decoder.pass = .inl (answer, after)) : after.reader.buffer = [] := by
  rcases decoder.pass_cases with ⟨fault, reader, seen, passed⟩ | ⟨other, left, passed, silent, _⟩ |
    ⟨next, passed, _⟩
  · cases answered.symm.trans passed
    exact Reader.buffer_of_peek_error seen
  · cases answered.symm.trans passed
    cases silent.symm.trans reported
  · cases answered.symm.trans passed

/-- If a request reports a fault, the device has delivered the bytes that the reported offset
counts and those kept.  There are at most three of these, and they are undecided.  The offset is
the number of bytes delivered if and only if none are kept. -/
theorem offset_add_kept_of_fault (device : Device) (capacity : Nat) (policy : Policy)
    (count : Nat) :
    let before : Decoder :=
      (Source.pulls count ({ reader := .ofDevice device capacity, policy } : Decoder)).2
    let after := (Source.pull before).2
    ∀ (fault : Fault) (offset : Nat), (Source.pull before).1 = .error (.read fault offset) →
      ∃ delivered, device.bytes = delivered ++ after.reader.device.bytes ∧
        after.pending <:+ delivered ∧ Undecided after.pending ∧ after.pending.length ≤ 3 ∧
        offset + after.pending.length = delivered.length ∧
        (offset = delivered.length ↔ after.pending = []) := by
  intro before after fault offset failed
  have accounted : Accounted device policy before :=
    (Accounted.ofDevice device capacity policy).pulls count
  rcases decode_settles accounted.unfinished with ⟨answer, left, taken, decoded, finished, settles⟩
  have answered : answer = .error (.read fault offset) :=
    (congrArg Prod.fst decoded).symm.trans failed
  have leaves : after = left := congrArg Prod.snd decoded
  have reported : fault? answer = some fault := by
    rw [answered]
    rfl
  rcases exists_last_pass finished with ⟨last, _, final⟩
  have empty := buffer_of_pass_fault reported final
  have later := accounted.settles settles
  rcases later.bytes_eq with ⟨given, counted, whole⟩
  rw [Reader.bytes, empty, List.nil_append] at whole
  have same : offset = left.offset := by
    cases settles with
    | failed _ keeps =>
        cases answered
        exact keeps.offset_eq.symm
    | ended _ _ => cases answered
    | gave part _ _ _ _ _ _ =>
        rw [fault?_answer] at reported
        cases reported
  have total : offset + left.pending.length = (given ++ left.pending).length := by
    rw [List.length_append, counted, same]
  rw [leaves]
  refine ⟨given ++ left.pending, whole, List.suffix_append _ _,
    unfinished_iff_undecided.mp later.unfinished, Nat.le_of_lt_succ later.unfinished.length_lt,
    total, ?_⟩
  rw [← total, ← List.length_eq_zero_iff]
  omega

/-- A fault after the first byte of a character. -/
def faultInside : Device := ⟨[.data [0x41, 0xE2], .fault ⟨.other, .standard⟩, .data [0x82, 0xAC]], 0⟩

theorem pulls_faultInside :
    Source.pulls 2 ({ reader := .ofDevice faultInside 8 } : Decoder) =
      ([.ok (some 'A'), .error (.read ⟨.other, .standard⟩ 1)],
        { reader := ⟨8, [], ⟨[.data [0x82, 0xAC]], 2⟩⟩, pending := [0xE2], offset := 1 }) := by
  let start : Decoder := { reader := .ofDevice faultInside 8 }
  let next : Decoder :=
    { reader := ⟨8, [0xE2], ⟨[.fault ⟨.other, .standard⟩, .data [0x82, 0xAC]], 1⟩⟩, offset := 1 }
  have first : start.decode = (.ok (some 'A'), next) := @decode_of_passes 1 _ _ rfl
  have second : next.decode = (.error (.read ⟨.other, .standard⟩ 1),
      { reader := ⟨8, [], ⟨[.data [0x82, 0xAC]], 2⟩⟩, pending := [0xE2], offset := 1 }) :=
    @decode_of_passes 2 _ _ rfl
  rw [Source.pulls_succ, pull_eq, first, Source.pulls_succ, pull_eq, second, Source.pulls_zero]

theorem offset_add_kept_of_fault_faultInside :
    let before : Decoder := (Source.pulls 1 ({ reader := .ofDevice faultInside 8 } : Decoder)).2
    (Source.pull before).1 = .error (.read ⟨.other, .standard⟩ 1) ∧
      ∃ delivered,
        faultInside.bytes = delivered ++ (Source.pull before).2.reader.device.bytes ∧
        (Source.pull before).2.pending <:+ delivered ∧
        1 + (Source.pull before).2.pending.length = delivered.length := by
  intro before
  have failed : (Source.pull before).1 = .error (.read ⟨.other, .standard⟩ 1) := by
    have both := congrArg (·.1[1]?) pulls_faultInside
    exact Option.some.inj both
  rcases offset_add_kept_of_fault faultInside 8 .strict 1 _ _ failed with
    ⟨delivered, whole, kept, _, _, total, _⟩
  exact ⟨failed, delivered, whole, kept, total⟩

/-- One more byte was delivered before this fault than its offset counts. -/
theorem offset_ne_delivered_faultInside :
    ∃ after : Decoder,
      Source.pulls 2 ({ reader := .ofDevice faultInside 8 } : Decoder) =
        ([.ok (some 'A'), .error (.read ⟨.other, .standard⟩ 1)], after) ∧
      faultInside.bytes = [0x41, 0xE2] ++ after.reader.device.bytes ∧ [0x41, 0xE2].length ≠ 1 :=
  ⟨_, pulls_faultInside, rfl, by decide⟩

end Decoder
end ForwardCursor
