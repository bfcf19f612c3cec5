import Abacus.Proofs.Reading.Layout
import Abacus.Proofs.Safety.Binding
import Abacus.Report

/-!
# Which failures have a place

A place carries the name of its file, and the name `Position.nullFile` stands for no place. Reading
gives every place the name that the caller chose, and the other two passes use the null position. So
the phase of a fault tells whether it has a place, under every name but one: a file may be called
`Position.nullFile`, and then no failure has a place.

* `Cursor.span_file_of_mem_produced`, `Cursor.position_file_of_tokens` — all that comes from a
  cursor carries the name of its file.
* `Program.position_file_of_parse` — so do the failures of reading.
* `Program.run_isNull_iff` — which failures of a run are null, and what their reports show.
-/

namespace Abacus

open Abacus.Text

/-! ## The file of a cursor -/

namespace Cursor

variable {c c' : Cursor} {t : Token} {d : Diagnostic}

theorem file_of_next_ok (h : c.next = (.ok t, c')) : t.span.file = c.file ∧ c'.file = c.file := by
  rcases c.next_cases with ⟨-, hn⟩ | ⟨_, _, _, _, -, -, hn⟩ | ⟨_, _, _, -, -, hn⟩
  · rw [hn] at h
    cases h
    exact ⟨rfl, rfl⟩
  · rw [hn] at h
    cases h
    exact ⟨rfl, rfl⟩
  · rw [hn] at h
    cases h

theorem file_of_next_error (h : c.next = (.error d, c')) : d.position.file = c.file := by
  obtain ⟨_, _, _, -, -, rfl, -⟩ := of_next_error h
  rfl

/-- The tokens of a cursor lie in its file. -/
theorem span_file_of_mem_produced (h : t ∈ c.produced) : t.span.file = c.file := by
  fun_induction produced c with
  | case1 => cases h
  | case2 c u c' hn hu =>
    obtain rfl := List.mem_singleton.mp h
    exact (file_of_next_ok hn).1
  | case3 c u c' hn hu _ ih =>
    rcases List.mem_cons.mp h with rfl | h
    · exact (file_of_next_ok hn).1
    · exact (ih h).trans (file_of_next_ok hn).2

/-- What cannot be read lies in the file too. -/
theorem position_file_of_tokens (h : c.tokens = .error d) : d.position.file = c.file := by
  fun_induction produced c with
  | case1 c d' c' hn =>
    rw [tokens_of_error hn] at h
    cases h
    exact file_of_next_error hn
  | case2 c u c' hn hu =>
    rw [tokens_of_eof hn hu] at h
    cases h
  | case3 c u c' hn hu _ ih =>
    rw [tokens_of_ok hn hu] at h
    cases htokens : c'.tokens with
    | ok ts =>
      rw [htokens] at h
      cases h
    | error d' =>
      rw [htokens] at h
      cases h
      exact (ih htokens).trans (file_of_next_ok hn).2

end Cursor

/-! ## Null positions -/

theorem Position.isNull_iff {p : Position} : p.isNull = true ↔ p.file = nullFile := beq_iff_eq

/-- A text without a file name does not have the null one. -/
theorem Cursor.getD_defaultFile_eq_nullFile_iff {file : Option String} :
    file.getD defaultFile = Position.nullFile ↔ file = some Position.nullFile := by
  cases file with
  | none => exact iff_of_false (by decide) (by simp)
  | some name => simp

theorem Diagnostic.line?_of_not_isNull {d : Diagnostic} (h : ¬ d.position.isNull = true)
    (text : String) : d.line? text = lineAt? text.toList d.position.offset.toNat :=
  if_neg h

namespace Program

variable {text : String} {file : Option String} {d : Diagnostic}

/-- **The failures of reading lie in the file that was named.** -/
theorem position_file_of_parse (h : Program.parse text file = .error d) :
    d.position.file = file.getD Cursor.defaultFile := by
  rcases parse_error_cases h with hunread | ⟨before, t, hstops⟩
  · exact Cursor.position_file_of_tokens hunread.tokenize_eq
  · have ht : t ∈ (Cursor.ofText text file).produced :=
      hstops.produced.subset (List.mem_append_right _ List.mem_cons_self)
    rw [hstops.offends.position]
    exact Cursor.span_file_of_mem_produced ht

/-- The faults of the passes without places are semantic or runtime ones: a literal that is no
number would be lexical, but no text that was read has one. -/
theorem phase_of_unplaced {p : Program} {fault : Fault} (hp : Program.parse text file = .ok p)
    (h : p.check = .error fault ∨ ∃ t, p.check = .ok t ∧ p.evaluate = .error fault) :
    fault.phase = .semantic ∨ fault.phase = .runtime := by
  rcases h with hc | ⟨t, hc, he⟩
  · exact .inl (phase_of_check hc)
  · obtain ⟨op, l, r, rfl⟩ := (valueFault_of_check hc he).of_readable (readable_of_parse hp)
    exact .inr rfl

/-- **A failure without a place is semantic or at run time, or the file has the null name.** The
others lie in the named file, and unless it has that name their reports look up the line. -/
theorem run_isNull_iff (h : Program.run text file = .error d) :
    (d.position.isNull = true ↔
      (d.fault.phase = .semantic ∨ d.fault.phase = .runtime) ∨ file = some Position.nullFile) ∧
    (d.fault.phase = .lexical ∨ d.fault.phase = .syntactic →
      d.position.file = file.getD Cursor.defaultFile ∧
      (file ≠ some Position.nullFile →
        d.line? text = lineAt? text.toList d.position.offset.toNat)) := by
  rcases run_error_cases h with hp | ⟨p, fault, hp, rfl, hfails⟩
  · have hfile := position_file_of_parse hp
    have hnull : d.position.isNull = true ↔ file = some Position.nullFile := by
      rw [Position.isNull_iff, hfile, Cursor.getD_defaultFile_eq_nullFile_iff]
    have hphase : ¬ (d.fault.phase = .semantic ∨ d.fault.phase = .runtime) := by
      rcases phase_of_parse hp with hd | hd <;> rw [hd] <;> decide
    refine ⟨?_, fun _ => ⟨hfile, fun hne => ?_⟩⟩
    · rw [hnull, or_iff_right hphase]
    · exact Diagnostic.line?_of_not_isNull (fun hd => hne (hnull.mp hd)) text
  · have hphase : (Diagnostic.unplaced fault).fault.phase = .semantic ∨
        (Diagnostic.unplaced fault).fault.phase = .runtime := phase_of_unplaced hp hfails
    refine ⟨iff_of_true (Position.isNull_iff.mpr rfl) (.inl hphase), fun hread => ?_⟩
    rcases hphase with hd | hd <;> rw [hd] at hread <;> exact absurd hread (by decide)

/-- An operand is missing on the second line of a file with a usual name. -/
theorem run_isNull_iff_operand :
    ∃ d, Program.run "function f(int a)\x7b\n  x = 1 + ;\n\x7d" (some "f.txt") = .error d ∧
      d.fault.phase = .syntactic ∧ ¬ d.position.isNull = true ∧ d.position.file = "f.txt" ∧
      d.line? "function f(int a)\x7b\n  x = 1 + ;\n\x7d" =
        some ⟨2, "  x = 1 + ;\n".toList, 10⟩ := by
  obtain ⟨d, hp, hphase, hline⟩ : ∃ d, Program.parse "function f(int a)\x7b\n  x = 1 + ;\n\x7d"
      (some "f.txt") = .error d ∧ d.fault.phase = .syntactic ∧
      lineAt? "function f(int a)\x7b\n  x = 1 + ;\n\x7d".toList d.position.offset.toNat =
        some ⟨2, "  x = 1 + ;\n".toList, 10⟩ := by
    refine ⟨⟨.unexpected .ident .semi, ⟨29, "f.txt"⟩⟩, ?_, rfl, ?_⟩ <;> decide +kernel
  have hr := run_of_parse_error hp
  obtain ⟨hnull, hplaced⟩ := run_isNull_iff hr
  obtain ⟨hfile, hshown⟩ := hplaced (.inr hphase)
  refine ⟨d, hr, hphase, ?_, hfile, (hshown (by decide)).trans hline⟩
  rw [hnull, hphase]
  decide

/-- The phase alone does not tell: a character that starts no token has no place in a file with the
null name. -/
theorem run_isNull_not_by_phase :
    ¬ ∀ (text : String) (file : Option String) (d : Diagnostic),
      Program.run text file = .error d →
        (d.position.isNull = true ↔ d.fault.phase = .semantic ∨ d.fault.phase = .runtime) := by
  intro h
  have hp : Program.parse "#" (some "<null>") = .error ⟨.unsupported "#", ⟨0, "<null>"⟩⟩ := by
    decide +kernel
  exact absurd (h _ _ _ (run_of_parse_error hp)) (by decide)

end Program

end Abacus
