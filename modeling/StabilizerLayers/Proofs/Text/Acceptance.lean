import StabilizerLayers.Proofs.Text.RoundTrip

/-!
# Valid instructions and their text

An instruction without arguments is read back from its own line exactly if it passes its
check and every record in it is counted back. The check itself does not look at how far a
record is counted back. A valid instruction with a record of lookback zero can be written,
and its text is refused at that record.
-/

namespace StabilizerLayers

namespace Reader

/-- Tokens that lead a reader somewhere are taken before those behind them. -/
theorem advance_append_of_takes {reader next : Reader} {line : Nat} {tokens : List Token}
    (taken : reader.takes line (some tokens) = some next) (rest : List Lexeme) :
    reader.advance (Token.onLine line tokens ++ rest) = next.advance rest :=
  advance_append_of_ok (eq_ok_of_toOption taken) rest

/-- A record that is not counted back is refused behind its closing bracket. -/
theorem advance_record_zero {reader : Reader} {draft : Draft}
    (among : reader.place.targetsOf? = some draft) (line : Nat) (rest : List Lexeme) :
    reader.advance (Token.onLine line (Target.record 0).tokens ++ rest) =
      .error (.invalidTarget line .recordNotNegative) := by
  have word : reader.step ⟨.word "rec", line⟩ = .ok (reader.moved (.recordOpen draft)) :=
    step_target among Token.noConfusion
  simp only [Target.tokens, Token.onLine, List.map_cons, List.cons_append, advance, word]
  rfl

end Reader

namespace Instruction

/-- The line of an instruction is the text of the circuit that consists of it. -/
theorem text_single (instruction : Instruction) :
    Circuit.text [.single instruction] = instruction.text ++ "\n" := by
  have alone : (Operation.linesAll 0 [.single instruction]) = [(0, instruction.text)] := rfl
  have unindented : Circuit.indentation 0 = "" := rfl
  rw [Circuit.text, alone, List.map_singleton, unindented, String.empty_append]
  simp [String.join]

/-- Targets up to the first record that is not counted back. -/
theorem exists_first_zero {targets : List Target}
    (some : ∃ target ∈ targets, ¬ target.CountsBack) :
    ∃ before after, targets = before ++ .record 0 :: after ∧
      ∀ target ∈ before, target.CountsBack := by
  induction targets with
  | nil => simp at some
  | cons target rest inductionHypothesis =>
    by_cases back : target.CountsBack
    · have later : ∃ other ∈ rest, ¬ other.CountsBack := by
        simpa [back] using some
      obtain ⟨before, after, rfl, counted⟩ := inductionHypothesis later
      exact ⟨target :: before, after, rfl, List.forall_mem_cons.mpr ⟨back, counted⟩⟩
    · refine ⟨[], rest, ?_, List.forall_mem_nil _⟩
      cases target with
      | record lookback =>
        have zero : lookback = 0 := by
          apply UInt32.toNat_inj.mp
          change ¬ 1 ≤ lookback.toNat at back
          change lookback.toNat = 0
          omega
        rw [zero, List.nil_append]
      | _ => exact absurd trivial back

end Instruction

namespace Circuit

/-- What the line of an instruction without arguments is scanned as. -/
theorem scanText_line (gate : Gate) (targets : List Target) :
    Token.scanText ((Instruction.on gate targets).text ++ "\n") =
      .ok (Token.onLine 1 (.word gate.name :: targets.flatMap Target.tokens) ++
        [⟨.newline, 1⟩]) := by
  have words : ∀ instruction ∈ Operation.instructionsAll [.single (.on gate targets)],
      Token.isWord instruction.operator.name.toList = true := by
    intro instruction member
    obtain rfl := List.mem_singleton.mp member
    exact gate.isWord_name
  have scanned := toOption_scanText words
  rw [Instruction.text_single] at scanned
  apply eq_ok_of_toOption
  rw [scanned]
  have tokens : (Instruction.on gate targets).tokens? =
      some (.word gate.name :: targets.flatMap Target.tokens) := rfl
  simp only [Operation.tokenLinesAll, Operation.tokenLines, tokens, List.singleton_append,
    Token.numbered?]
  rfl

/-- The name and targets that are counted back lead to an instruction on them. -/
theorem exists_takes_on (gate : Gate) {targets : List Target}
    (back : ∀ target ∈ targets, target.CountsBack) :
    ∃ place draft, place.targetsOf? = some draft ∧ draft.line = 1 ∧
      draft.instruction = .on gate targets ∧
      Reader.start.takes 1 (some (.word gate.name :: targets.flatMap Target.tokens)) =
        some (Reader.start.moved place) := by
  have readable : (Operator.known gate).IsReadable := trivial
  have name : Reader.start.step ⟨.word gate.name, 1⟩ = _ :=
    Reader.step_name rfl readable 1
  have among : (Reader.start.moved (.name ⟨1, gate.name, [], []⟩)).place.targetsOf? =
      some ⟨1, gate.name, [], []⟩ := rfl
  obtain ⟨place, reached, taken⟩ := Reader.takes_targets among back 1
  refine ⟨place, _, reached, rfl, ?_, ?_⟩
  · have operator : Operator.ofName gate.name = .known gate := Operator.ofName_name readable
    simp only [Draft.instruction, List.append_nil, List.reverse_reverse, List.reverse_nil,
      operator]
    rfl
  · rw [Reader.takes_token name]
    exact taken

/-- The line of an instruction without arguments is refused for the first record that is not
    counted back, or else for what its check finds, and is read back if there is nothing. -/
theorem parse_line_eq (gate : Gate) (targets : List Target) :
    parse ((Instruction.on gate targets).text ++ "\n") =
      if ∀ target ∈ targets, target.CountsBack then
        match (Instruction.on gate targets).validate with
        | .ok () => .ok [.single (.on gate targets)]
        | .error fault => .error (.invalidInstruction 1 fault)
      else .error (.invalidTarget 1 .recordNotNegative) := by
  rw [parse, scanText_line]
  simp only [ofLexemes]
  by_cases back : ∀ target ∈ targets, target.CountsBack
  · obtain ⟨place, draft, among, line, complete, taken⟩ := exists_takes_on gate back
    rw [if_pos back, Reader.advance_append_of_takes taken]
    have ends : (Reader.start.moved place).step ⟨.newline, 1⟩ =
        (Reader.start.moved place).endInstruction draft :=
      Reader.step_target among Token.noConfusion
    simp only [Reader.advance, ends, Reader.endInstruction, Builder.append, complete, line]
    cases (Instruction.on gate targets).validate with
    | error fault => rfl
    | ok _ => rfl
  · rw [if_neg back]
    obtain ⟨before, after, rfl, counted⟩ := Instruction.exists_first_zero (by simpa using back)
    obtain ⟨place, draft, among, -, -, taken⟩ := exists_takes_on gate counted
    rw [List.flatMap_append, List.flatMap_cons, ← List.cons_append, Token.onLine_append,
      Token.onLine_append, List.append_assoc, List.append_assoc,
      Reader.advance_append_of_takes taken, Reader.advance_record_zero among]

/-- An instruction without arguments is read back from its line exactly if it is valid and
    counts every record back; a record that is not counted back is refused, although the
    check of the instruction does not mind it. -/
theorem parse_line_iff (gate : Gate) (targets : List Target) :
    (parse ((Instruction.on gate targets).text ++ "\n") = .ok [.single (.on gate targets)] ↔
      (Instruction.on gate targets).validate = .ok () ∧
        ∀ target ∈ targets, target.CountsBack) ∧
    ((∃ target ∈ targets, ¬ target.CountsBack) →
      parse ((Instruction.on gate targets).text ++ "\n") =
        .error (.invalidTarget 1 .recordNotNegative)) := by
  rw [parse_line_eq]
  constructor
  · by_cases back : ∀ target ∈ targets, target.CountsBack
    · rw [if_pos back, and_iff_left back]
      cases (Instruction.on gate targets).validate with
      | error fault => simp
      | ok _ => simp
    · rw [if_neg back]
      simp [back]
  · rintro ⟨target, member, forward⟩
    exact if_neg fun back => forward (back target member)

/-- Feedback from a record and from a sweep bit is read back. -/
theorem parse_line_iff_feedback :
    parse "CX rec[-1] 0 sweep[2] 4\n" =
      .ok [.single (.on (.controlled .Z .X) [.record 1, .plain 0, .sweep 2, .plain 4])] := by
  have text : (Instruction.on (.controlled .Z .X)
      [.record 1, .plain 0, .sweep 2, .plain 4]).text ++ "\n" =
        "CX rec[-1] 0 sweep[2] 4\n" := by decide +kernel
  rw [← text]
  exact (parse_line_iff _ _).1.mpr ⟨by decide +kernel, by decide +kernel⟩

/-- A detector passes its check with a record of lookback zero, and its own text is refused. -/
theorem parse_line_detector_zero :
    (Instruction.on .detector [.record 0]).validate = .ok () ∧
      parse ((Instruction.on .detector [.record 0]).text ++ "\n") =
        .error (.invalidTarget 1 .recordNotNegative) ∧
      parse ((Instruction.on .detector [.record 0]).text ++ "\n") ≠
        .ok [.single (.on .detector [.record 0])] := by
  have refused : parse ((Instruction.on .detector [.record 0]).text ++ "\n") =
      .error (.invalidTarget 1 .recordNotNegative) := by
    rw [parse_line_eq, if_neg (by decide)]
  refine ⟨by decide, refused, ?_⟩
  rw [refused]
  simp

end Circuit

end StabilizerLayers
