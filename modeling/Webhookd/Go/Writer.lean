import Webhookd.Go.Strings

/-!
# Responses of `net/http`

What a handler does to its `http.ResponseWriter`: it announces a status, and
writes bytes, of which some may be accepted. `ServerResponse` is the writer of
the server. It sends a first status that is not informational, and the status
200 if bytes are written or the handler returns before there is one. The header
fields of a response are left out.

A writer passes through phases (`ResponseWriter.Phases`): it is fresh until a
first call, which settles the status (`announced`). This is how the server's
writer behaves up to the second status (`ServerResponse.phases`), and what one
that wraps it has to show.

`ServerWriter` is what is documented of the writers of servers, whatever they
accept of what is written. `ServerResponse` is one of them
(`ServerResponse.serverWriter`).
-/

namespace Go

/-- `http.ResponseWriter`, on states `σ`. `WriteHeader` may panic, and `Write` returns
    how many bytes were accepted. -/
structure ResponseWriter (σ : Type) where
  writeHeader : Int → σ → Option σ
  write : GoString → σ → Nat × σ

inductive WriterCall
  | writeHeader (code : Int)
  | write (b : GoString)
  deriving DecidableEq

/-- The codes that `checkWriteHeaderCode` does not panic on. -/
def ValidCode (code : Int) : Prop := 100 ≤ code ∧ code ≤ 999

instance (code : Int) : Decidable (ValidCode code) := inferInstanceAs (Decidable (_ ∧ _))

/-- The codes that are sent without ending the header. -/
def Informational (code : Int) : Prop := 100 ≤ code ∧ code ≤ 199 ∧ code ≠ 101

instance (code : Int) : Decidable (Informational code) := inferInstanceAs (Decidable (_ ∧ _ ∧ _))

/-- The status that a first call announces. -/
def announced : List WriterCall → Int
  | .writeHeader code :: _ => code
  | .write _ :: _ | [] => 200

/-- `bodyAllowedForStatus`. -/
def bodyAllowed (status : Int) : Bool :=
  !(100 ≤ status && status ≤ 199) && status ≠ 204 && status ≠ 304

namespace ResponseWriter

variable {σ : Type}

/-- The calls of a handler, up to one that panics, and whether one did. -/
def run (w : ResponseWriter σ) : List WriterCall → σ → Bool × σ
  | [], s => (false, s)
  | .writeHeader code :: cs, s =>
    match w.writeHeader code s with
    | none => (true, s)
    | some s => w.run cs s
  | .write b :: cs, s => w.run cs (w.write b s).2

theorem run_writeHeader {w : ResponseWriter σ} {code : Int} {s s' : σ} (cs : List WriterCall)
    (h : w.writeHeader code s = some s') : w.run (.writeHeader code :: cs) s = w.run cs s' := by
  simp only [run, h]

/-- The first call on a fresh writer settles the status, and writing leaves it. -/
structure Phases (w : ResponseWriter σ) (fresh : σ → Prop) (settled : Int → σ → Prop) : Prop where
  writeHeader : ∀ {code s}, fresh s → ValidCode code →
    ∃ s', w.writeHeader code s = some s' ∧ settled code s'
  panic : ∀ {code s}, fresh s → ¬ValidCode code → w.writeHeader code s = none
  write : ∀ {b s}, fresh s → settled 200 (w.write b s).2
  write_settled : ∀ {code b s}, settled code s → settled code (w.write b s).2

/-- After the calls of a handler, the status is settled, or there were none. -/
def Ended (fresh : σ → Prop) (settled : Int → σ → Prop) (code : Int) (s : σ) : Prop :=
  settled code s ∨ code = 200 ∧ fresh s

end ResponseWriter

/-! ## The writers of servers -/

/-- A writer that sends a response, and may accept any part of what is written. An
    informational status does not end the header, so there is another one;
    after that, statuses are ignored. -/
structure ServerWriter (σ : Type) extends ResponseWriter σ where
  /-- The status that ended the header, if it was sent. -/
  status : σ → Option Int
  body : σ → GoString
  /-- How many bytes were accepted. -/
  accepted : σ → Nat
  superfluous : ∀ {c code s}, status s = some c → writeHeader code s = some s
  informational : ∀ {code s}, status s = none → Informational code →
    ∃ s', writeHeader code s = some s' ∧ status s' = none ∧ body s' = body s ∧
      accepted s' = accepted s
  ends : ∀ {code s}, status s = none → ValidCode code → ¬Informational code →
    ∃ s', writeHeader code s = some s' ∧ status s' = some code ∧ body s' = body s ∧
      accepted s' = accepted s
  status_write : ∀ b s, status (write b s).2 = some ((status s).getD 200)
  accepted_write : ∀ b s, accepted (write b s).2 = accepted s + (write b s).1

/-- The status of the response, after the handler has returned. -/
def ServerWriter.final {σ : Type} (w : ServerWriter σ) (s : σ) : Int := (w.status s).getD 200

/-! ## The writer of the server -/

/-- `http.response`: what was sent, and how many bytes the connection still takes. -/
structure ServerResponse where
  wroteHeader : Bool := false
  status : Int := 0
  informational : List Int := []
  body : GoString := []
  capacity : Nat

namespace ServerResponse

/-- `WriteHeader`. -/
def writeHeader (code : Int) (s : ServerResponse) : Option ServerResponse :=
  if s.wroteHeader then some s
  else if ¬ValidCode code then none
  else if Informational code then some { s with informational := s.informational ++ [code] }
  else some { s with wroteHeader := true, status := code }

/-- `Write`. -/
def write (b : GoString) (s : ServerResponse) : Nat × ServerResponse :=
  let s := if s.wroteHeader then s else { s with wroteHeader := true, status := 200 }
  if b = [] ∨ ¬bodyAllowed s.status then (0, s)
  else
    let n := min b.length s.capacity
    (n, { s with body := s.body ++ b.take n, capacity := s.capacity - n })

def writer : ResponseWriter ServerResponse := ⟨writeHeader, write⟩

/-- The status that is on the wire after the handler has returned. -/
def final (s : ServerResponse) : Int := if s.wroteHeader then s.status else 200

/-- A status that is valid does not panic. -/
theorem exists_writeHeader {code : Int} (h : ValidCode code) (s : ServerResponse) :
    ∃ s', writer.writeHeader code s = some s' := by
  simp only [writer, writeHeader]
  split_ifs <;> exact ⟨_, rfl⟩

/-- Writing sends the status that the response would have without it. -/
theorem status_write (b : GoString) (s : ServerResponse) :
    (write b s).2.wroteHeader = true ∧ (write b s).2.status = s.final := by
  rcases s with ⟨_ | _, status, _, _, _⟩
  · simp only [write, final]
    split_ifs <;> simp_all
  · simp only [write, final]
    split_ifs <;> simp

theorem final_write (b : GoString) (s : ServerResponse) : (write b s).2.final = s.final := by
  obtain ⟨hw, hst⟩ := status_write b s
  rw [final, if_pos hw, hst]

/-- The first call decides what is sent, unless it is informational. -/
theorem phases : writer.Phases (fun s => s.wroteHeader = false)
    (fun code s => s.final = if Informational code then 200 else code) where
  writeHeader {code s} hs hc := by
    by_cases hi : Informational code
    · refine ⟨{ s with informational := s.informational ++ [code] }, ?_, ?_⟩
      · simp [writer, writeHeader, hs, hc, hi]
      · simp [final, hs, hi]
    · refine ⟨{ s with wroteHeader := true, status := code }, ?_, ?_⟩
      · simp [writer, writeHeader, hs, hc, hi]
      · simp [final, hi]
  panic {code s} hs hc := by simp [writer, writeHeader, hs, hc]
  write {b s} hs := by
    rw [writer, final_write, if_neg (by decide)]
    simp [final, hs]
  write_settled {code b s} hs := (final_write b s).trans hs

theorem final_of_ended {code : Int} {s : ServerResponse}
    (h : ResponseWriter.Ended (fun s => s.wroteHeader = false)
      (fun code s => s.final = if Informational code then 200 else code) code s) :
    s.final = if Informational code then 200 else code := by
  rcases h with h | ⟨rfl, h⟩
  · exact h
  · simp [final, h, Informational]

theorem accepted_write (b : GoString) (s : ServerResponse) :
    (write b s).2.body.length = s.body.length + (write b s).1 := by
  rcases s with ⟨_ | _, status, _, _, _⟩
  · simp only [write]
    split_ifs <;> simp
  · simp only [write]
    split_ifs <;> simp

/-- The bytes of the body are those that were accepted. -/
def serverWriter : ServerWriter ServerResponse where
  toResponseWriter := writer
  status s := if s.wroteHeader then some s.status else none
  body := body
  accepted s := s.body.length
  superfluous {c code s} h := by
    have hw : s.wroteHeader = true := by
      by_contra hw
      rw [if_neg hw] at h
      cases h
    exact if_pos hw
  informational {code s} h hi := by
    have hw : s.wroteHeader = false := by simpa using h
    have hc : ValidCode code := ⟨hi.1, hi.2.1.trans (by decide)⟩
    refine ⟨{ s with informational := s.informational ++ [code] }, ?_, h, rfl, rfl⟩
    simp [writer, writeHeader, hw, hc, hi]
  ends {code s} h hc hi := by
    have hw : s.wroteHeader = false := by simpa using h
    refine ⟨{ s with wroteHeader := true, status := code }, ?_, rfl, rfl, rfl⟩
    simp [writer, writeHeader, hw, hc, hi]
  status_write b s := by
    obtain ⟨hw, hst⟩ := status_write b s
    simp only [writer, hw, hst, if_true, final]
    split_ifs <;> rfl
  accepted_write := accepted_write

end ServerResponse

end Go
