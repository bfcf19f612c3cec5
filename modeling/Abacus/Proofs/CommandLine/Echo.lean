import Abacus.CommandLine.Session
import Abacus.Proofs.Reading.Exactness

/-!
# Calls on a readable file

A call asks its reader for the input file once, whatever the path and whatever the reader does. To a
text it answers what running the text gives, although it goes through the passes on its own
(`respondTo_eq_answer`), and the token trace only adds lines in front (`session_of_run`). The traced
tokens are the ones that reading has pulled, so how far they go depends on how reading ends
(`Pulled`, `parseFrom_pulled`):

* all tokens, and the end once more, if the text is read as a program;
* up to and with the offending token at a syntax error;
* all tokens before the one that cannot be read at a lexical error.
-/

namespace Abacus

/-! ## What reading pulls -/

namespace Parser

variable {p q r : Parser} {us : List Token} {t : Token}

/-- A parser that starts or advances takes its current token from the cursor before it. -/
theorem Moves.exists_next (h : Moves p us q)
    (hp : ∃ c : Cursor, c.next = (.ok p.current, p.cursor)) :
    ∃ c : Cursor, c.next = (.ok q.current, q.cursor) := by
  induction h with
  | refl => exact hp
  | @step p q r us _ ha _ ih => exact ih ⟨p.cursor, (advance_ok_iff.mp ha).2.1⟩

/-- Advancing past the end pulls the end once more. -/
theorem pulled_of_advance_eof {c : Cursor} (hn : c.next = (.ok q.current, q.cursor))
    (hk : q.kind = .eof) (ha : q.advance = (.ok t, r)) :
    r.pulled = q.pulled.push q.current := by
  obtain ⟨-, -, hpulled⟩ := advance_ok_iff.mp ha
  have hagain : r.current = q.current := by
    rw [current_of_advance_eof (endsText_of_next hn) hk ha, ← Cursor.eq_token_of_next_eof hn hk]
  rw [hpulled, hagain]

/-- A parser that meets the end has pulled all tokens of the text, and the end once more. -/
theorem pulled_of_expect_eof {c : Cursor} (hs : start c = .ok p) (hm : Moves p us q)
    (he : q.expect .eof = (.ok t, r)) :
    c.tokens = .ok (us ++ [q.current]) ∧ q.kind = .eof ∧
      r.pulled = (us ++ [q.current, q.current]).toArray := by
  obtain ⟨-, htokens, hpulled, -⟩ := produced_of_moves hs hm
  unfold expect expectOr at he
  split at he
  case isFalse => cases he
  case isTrue hk =>
    obtain ⟨c', hn⟩ := hm.exists_next ⟨c, (start_ok_iff.mp hs).1⟩
    rw [tokensAhead, if_pos hk] at htokens
    refine ⟨htokens, hk, ?_⟩
    rw [pulled_of_advance_eof hn hk he, hpulled]
    simp

end Parser

/-- A text that is read as a program has been pulled to its end, and the end once more. -/
theorem pulled_of_parseFrom_ok {c : Cursor} {p : Program} {pulled : Array Token}
    (h : Program.parseFrom c = (.ok p, pulled)) :
    ∃ ts last, c.tokens = .ok (ts ++ [last]) ∧ last.kind = .eof ∧
      pulled = (ts ++ [last, last]).toArray := by
  unfold Program.parseFrom at h
  split at h
  case h_1 => cases h
  case h_2 parser hs =>
    have hreads := parser.reads_program
    generalize parser.program.attempt = a at hreads h
    cases hreads with
    | unread => cases h
    | rejected => cases h
    | @done us q program hm _ _ =>
      rcases he : q.expect .eof with ⟨d | t, r⟩
      · simp only [Attempt.andThen, he] at h
        cases h
      · simp only [Attempt.andThen, he] at h
        cases h
        exact ⟨us, q.current, Parser.pulled_of_expect_eof hs hm he⟩

/-- What reading a text pulls, by how it ends. -/
inductive Pulled (text : String) (file : Option String) :
    Except Diagnostic Program → List Token → Prop
  | accepted {p : Program} {ts : List Token} {last : Token}
      (htokens : tokenize text file = .ok (ts ++ [last])) (hlast : last.kind = .eof) :
      Pulled text file (.ok p) (ts ++ [last, last])
  | unread {d : Diagnostic} (hphase : d.fault.phase = .lexical)
      (htokens : tokenize text file = .error d) :
      Pulled text file (.error d) (Cursor.ofText text file).produced
  | offended {before : List Token} {t : Token} {d : Diagnostic}
      (hproduced : before ++ [t] <+: (Cursor.ofText text file).produced)
      (hd : Offends before t d) : Pulled text file (.error d) (before ++ [t])

/-- **Reading pulls as far as it has to.** -/
theorem parseFrom_pulled (text : String) (file : Option String) :
    Pulled text file (Program.parse text file)
      (Program.parseFrom (.ofText text file)).2.toList := by
  have hout := parseFrom_outcome (.ofText text file)
  unfold Program.parse
  rcases hread : Program.parseFrom (.ofText text file) with ⟨answer, pulled⟩
  rw [hread] at hout
  cases hout with
  | accepted =>
    obtain ⟨ts, last, htokens, hlast, rfl⟩ := pulled_of_parseFrom_ok hread
    exact .accepted htokens hlast
  | unread hphase htokens _ => exact .unread hphase htokens
  | offended hproduced hd => exact .offended hproduced hd

/-! ## The answer to a file -/

namespace CommandLine

/-- The trace of some tokens, if the options ask for it. -/
def echo (options : Options) (ts : List Token) : String :=
  if options.traceTokens then
    unlines (ts.map fun t => "Create " ++ t.kind.name ++ " token " ++ t.lexeme)
  else ""

/-- What a call answers to a run of its text, after some traced tokens. -/
def answer (options : Options) (text : String) (shown : List Token) :
    Except Diagnostic Evaluation → Outcome
  | .ok e => { status := 0, stdout := echo options shown ++ unlines (resultLines e) }
  | .error d =>
    { status := 1, stdout := echo options shown, stderr := d.report text options.fileName }

/-- **The passes of a call agree with a run.** Each of them may end the call, and then it ends the
run with the same fault. -/
theorem respondTo_eq_answer (options : Options) (text : String) :
    respondTo options text =
      answer options text (Program.parseFrom (.ofText text (some options.fileName))).2.toList
        (Program.run text (some options.fileName)) := by
  rcases hread : Program.parseFrom (.ofText text (some options.fileName)) with ⟨parsed, pulled⟩
  have hparse : Program.parse text (some options.fileName) = parsed := congrArg Prod.fst hread
  simp only [respondTo, hread]
  cases parsed with
  | error d =>
    rw [Program.run_of_parse_error hparse]
    rfl
  | ok p =>
    cases hcheck : p.check with
    | error fault =>
      rw [Program.run_of_parse hparse]
      simp only [hcheck]
      rfl
    | ok t =>
      rw [Program.run_of_check hparse hcheck]
      simp only [hcheck]
      cases p.evaluate <;> rfl

/-- A call that needs its input asks for it once and answers what it gets. -/
theorem session_eq_map {m : Type → Type} [Monad m] [LawfulMonad m]
    {read : String → m (Except ReadFault String)} {arguments : List String} {options : Options}
    (hoptions : Options.parse arguments = .ok options) (hhelp : options.showHelp = false) :
    session read arguments = respond options <$> read options.input := by
  simp only [session, hoptions, hhelp, Bool.false_eq_true, if_false]
  exact bind_pure_comp _ _

/-- **A call on a readable file answers what running its text gives.** Whatever the reader does and
wherever the path leads, the call asks for its input once; to a text it answers with the trace
first, which is all that asking for the trace changes. -/
theorem session_of_run {m : Type → Type} [Monad m] [LawfulMonad m]
    (read : String → m (Except ReadFault String)) {arguments : List String} {options : Options}
    (hoptions : Options.parse arguments = .ok options) (hhelp : options.showHelp = false) :
    session read arguments = respond options <$> read options.input ∧
    ∀ text, ∃ shown,
      Pulled text (some options.fileName) (Program.parse text (some options.fileName)) shown ∧
      (∀ e, Program.run text (some options.fileName) = .ok e →
        respond options (.ok text) =
          { status := 0
            stdout := echo options shown ++
              unlines (e.bindings.map (fun (name, value) => name ++ " = " ++ value.text) ++
                [e.result.text])
            stderr := "" }) ∧
      ∀ d, Program.run text (some options.fileName) = .error d →
        respond options (.ok text) =
          { status := 1
            stdout := echo options shown
            stderr := d.report text options.fileName } := by
  refine ⟨session_eq_map hoptions hhelp, fun text => ?_⟩
  have hanswer := respondTo_eq_answer options text
  refine ⟨_, parseFrom_pulled text (some options.fileName), fun e he => ?_, fun d hd => ?_⟩
  · rw [he] at hanswer
    exact hanswer
  · rw [hd] at hanswer
    exact hanswer

/-- A closing parenthesis offends, and what comes after it is not traced. The file stands at an
absolute path; one above the working directory is read no differently. -/
theorem session_of_run_offended :
    (∃ shown,
      Pulled "function f(int a) \x7b x = 1 ) $ \x7d" (some "f.txt")
        (.error ⟨.unexpected .semi .rparen, ⟨26, "f.txt"⟩⟩) shown ∧
      Id.run (session (fun path => if path = "/in/f.txt" then
          pure (.ok "function f(int a) \x7b x = 1 ) $ \x7d") else pure (.error .notFound))
          ["/in/f.txt", "--tokens"]) =
        { status := 1
          stdout := unlines (shown.map fun t => "Create " ++ t.kind.name ++ " token " ++ t.lexeme)
          stderr := Diagnostic.report ⟨.unexpected .semi .rparen, ⟨26, "f.txt"⟩⟩
            "function f(int a) \x7b x = 1 ) $ \x7d" "f.txt" }) ∧
    Id.run (session (fun path => if path = "../f.txt" then
        pure (.ok "function f(int a) \x7b x = 1 ) $ \x7d") else pure (.error .notFound))
        ["../f.txt"]) =
      { status := 1
        stdout := ""
        stderr := Diagnostic.report ⟨.unexpected .semi .rparen, ⟨26, "f.txt"⟩⟩
          "function f(int a) \x7b x = 1 ) $ \x7d" "f.txt" } := by
  have hparse : Program.parse "function f(int a) \x7b x = 1 ) $ \x7d" (some "f.txt") =
      .error ⟨.unexpected .semi .rparen, ⟨26, "f.txt"⟩⟩ := by decide +kernel
  have hrun := Program.run_of_parse_error hparse
  constructor
  · have hoptions : Options.parse ["/in/f.txt", "--tokens"] =
        .ok { input := "/in/f.txt", traceTokens := true } := by decide +kernel
    have hname : Options.fileName { input := "/in/f.txt", traceTokens := true } = "f.txt" := by
      decide +kernel
    obtain ⟨hsession, hanswers⟩ := session_of_run (m := Id) (fun path =>
      if path = "/in/f.txt" then pure (.ok "function f(int a) \x7b x = 1 ) $ \x7d")
      else pure (.error .notFound)) hoptions rfl
    obtain ⟨shown, hpulled, -, hfailed⟩ := hanswers "function f(int a) \x7b x = 1 ) $ \x7d"
    simp only [hname, hparse] at hpulled hfailed
    refine ⟨shown, hpulled, ?_⟩
    rw [hsession]
    exact hfailed _ hrun
  · have hoptions : Options.parse ["../f.txt"] = .ok { input := "../f.txt" } := by decide +kernel
    have hname : Options.fileName { input := "../f.txt" } = "f.txt" := by decide +kernel
    obtain ⟨hsession, hanswers⟩ := session_of_run (m := Id) (fun path =>
      if path = "../f.txt" then pure (.ok "function f(int a) \x7b x = 1 ) $ \x7d")
      else pure (.error .notFound)) hoptions rfl
    obtain ⟨shown, -, -, hfailed⟩ := hanswers "function f(int a) \x7b x = 1 ) $ \x7d"
    simp only [hname] at hfailed
    rw [hsession]
    exact hfailed _ hrun

end CommandLine

end Abacus
