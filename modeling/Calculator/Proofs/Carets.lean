import Calculator.Proofs.Causes
import Calculator.Proofs.Lines
import Calculator.Proofs.Positions
import Calculator.Proofs.Writing

/-!
# The caret stands under the character

A report on a failure is read by its lines: the caret on the fourth is under the character
at fault on the third. That holds if no line is broken by what is written on it. A report
quotes from the text a name or a character that is no blank, and writes numbers, and the text
itself is shown with spaces for its blanks, so all this stays on its lines
(`Fault.OneLine`); only the name of the source must not hold a break itself.
-/

namespace Calculator

open Text

/-! ## Texts of faults -/

namespace Fault

/-- All that a fault says stands on one line each. -/
structure OneLine (fault : Fault) : Prop where
  message : OnOneLine fault.message
  help : ∀ t ∈ fault.help?, OnOneLine t
  suggestions : ∀ t ∈ fault.suggestions, OnOneLine t

instance : DecidablePred OneLine := fun fault =>
  decidable_of_iff
    (OnOneLine fault.message ∧ (∀ t ∈ fault.help?, OnOneLine t) ∧
      ∀ t ∈ fault.suggestions, OnOneLine t)
    ⟨fun h => ⟨h.1, h.2.1, h.2.2⟩, fun h => ⟨h.message, h.help, h.suggestions⟩⟩

/-- What may be said about an argument for which a function is not defined. -/
def reasons : List String :=
  "Modulo of infinite value" :: Function.all.flatMap fun f =>
    ("Math domain error in " ++ f.name) :: (f.domain?.map Domain.message).toList

theorem mem_reasons_of_undefinedAt (f : Function) :
    "Math domain error in " ++ f.name ∈ reasons :=
  .tail _ (List.mem_flatMap.2 ⟨f, f.mem_all, .head _⟩)

theorem mem_reasons_of_domain {f : Function} {d : Domain} (h : f.domain? = some d) :
    d.message ∈ reasons := by
  refine .tail _ (List.mem_flatMap.2 ⟨f, f.mem_all, .tail _ ?_⟩)
  rw [h]
  exact List.mem_singleton_self _

/-- What a fault says beyond the text it is found in is known beforehand. -/
def Known : Fault → Prop
  | domain reason _ _ => reason ∈ reasons
  | unknownFunction _ known => known = Function.names
  | _ => True

variable {m : Elementary} {fault : Fault}

theorem known_undefinedAt (f : Function) (x : Binary64) : (f.undefinedAt x).Known :=
  mem_reasons_of_undefinedAt f

theorem known_of_function {f : Function} {x : Binary64} (h : f.apply m x = .error fault) :
    fault.Known := by
  rcases eq_of_function_error h with ⟨_, rfl⟩ | ⟨d, hd, _, rfl⟩ | ⟨_, h⟩
  · exact known_undefinedAt f x
  · exact mem_reasons_of_domain hd
  · rcases eq_of_settle_error h with ⟨_, rfl⟩ | ⟨rfl, _⟩
    · trivial
    · exact known_undefinedAt f x

theorem known_of_outcome {p : Operation} (h : p.outcome m = .error fault) : fault.Known := by
  cases p with
  | operator o x y =>
    rcases eq_of_apply_error h with ⟨_, _, rfl⟩ | ⟨_, _, rfl⟩ | ⟨_, _, rfl⟩ | rfl
    · trivial
    · trivial
    · exact List.mem_cons_self
    · trivial
  | power x y => rcases eq_of_power_error h with rfl | rfl <;> trivial
  | call name x =>
    rcases eq_of_applyNamed_error h with rfl | ⟨f, _, h⟩
    · rfl
    · exact known_of_function h

/-- Faults that arise are known but for what they quote. -/
theorem Arises.known (h : fault.Arises m) : fault.Known := by
  cases h with
  | tooDeep | tooLarge => trivial
  | operation p h => exact known_of_outcome h
  | written h =>
    cases fault with
    | domain | unknownFunction => exact absurd h nofun
    | _ => trivial

end Fault

theorem NamedAt.onOneLine {s : List Char} {p : Nat} {name : String} (h : NamedAt s p name) :
    OnOneLine name := by
  obtain ⟨n, rfl, _⟩ := h
  refine onOneLine_ofList fun c hc => isFileBreak_of_not_blank ?_
  rcases List.mem_cons.1 hc with rfl | hc
  · exact isBlank_eq_false_of_isAlphanum (isAlphanum_of_isAlpha n.first_isAlpha)
  · exact isBlank_eq_false_of_isAlphanum (n.rest_isAlphanum c hc)

theorem Binary64.onOneLine_text (x : Binary64) : OnOneLine x.text := fun c hc =>
  isFileBreak_of_not_blank (x.not_blank_of_mem_write Layout.exact shortest c hc)

/-- A fault that arises and is found where it belongs says nothing that breaks a line. -/
theorem Fault.oneLine {m : Elementary} {fault : Fault} {s : List Char} {p : Nat}
    (h : fault.Arises m) (hp : fault.PointsAt m s p) : fault.OneLine := by
  cases fault with
  -- These say the same always.
  | unexpectedEnd | malformedNumber | divisionByZero | moduloByZero | overflow
  | nestingTooDeep => decide +kernel
  | unclosed afterArgument => cases afterArgument <;> decide +kernel
  -- The others quote what is at fault, so it matters where that comes from.
  | unexpectedCharacter found =>
    obtain ⟨a, _, ha, hhelp⟩ := hp
    have hmessage : OnOneLine "Invalid expression" := by decide +kernel
    refine ⟨hmessage, fun t ht => ?_, fun _ ht => absurd ht List.not_mem_nil⟩
    rw [hhelp] at ht
    obtain rfl := Option.some.inj ht
    have hchar : OnOneLine (String.singleton a) := by
      intro c hc
      rw [String.toList_singleton, List.mem_singleton] at hc
      rw [hc]
      exact isFileBreak_of_not_blank ha
    exact onOneLine_append (onOneLine_append (by decide +kernel) hchar) (by decide +kernel)
  | uncalled name =>
    obtain ⟨_, _, q, b, hname, _⟩ := hp
    have hmessage : OnOneLine "Missing opening parenthesis after function" := by decide +kernel
    refine ⟨hmessage, fun t ht => ?_, fun _ ht => absurd ht List.not_mem_nil⟩
    obtain rfl := Option.some.inj ht
    exact onOneLine_append (onOneLine_append (onOneLine_append (onOneLine_append
      (by decide +kernel) hname.onOneLine) (by decide +kernel)) hname.onOneLine)
      (by decide +kernel)
  | domain reason name x =>
    have hreasons : ∀ t ∈ reasons, OnOneLine t := by decide +kernel
    refine ⟨hreasons _ h.known, fun t ht => ?_, fun _ ht => absurd ht List.not_mem_nil⟩
    obtain rfl := Option.some.inj ht
    exact onOneLine_append (onOneLine_append (onOneLine_append hp.1.onOneLine
      (by decide +kernel)) x.onOneLine_text) (by decide +kernel)
  | unknownFunction name known =>
    obtain rfl : known = Function.names := h.known
    have hsuggestions : ∀ t ∈ (unknownFunction "" Function.names).suggestions, OnOneLine t := by
      decide +kernel
    exact ⟨onOneLine_append (by decide +kernel) (NamedAt.onOneLine hp), nofun, hsuggestions⟩
  | undefinedPower x y =>
    have hmessage : OnOneLine "Power result is undefined" := by decide +kernel
    refine ⟨hmessage, fun t ht => ?_, fun _ ht => absurd ht List.not_mem_nil⟩
    obtain rfl := Option.some.inj ht
    exact onOneLine_append (onOneLine_append (onOneLine_append x.onOneLine_text
      (by decide +kernel)) y.onOneLine_text) (by decide +kernel)

/-- If there is help, it is not empty. -/
theorem Fault.help_ne_empty {fault : Fault} {t : String} (h : fault.help? = some t) : t ≠ "" := by
  intro ht
  rw [ht] at h
  cases fault with
  | unexpectedCharacter found =>
    obtain ⟨c, _, hc⟩ := Option.map_eq_some_iff.1 h
    exact absurd (congrArg String.toList hc) (by simp)
  | unexpectedEnd | uncalled _ | malformedNumber | domain _ _ _ | undefinedPower _ _ =>
    exact absurd (congrArg String.toList (Option.some.inj h)) (by simp)
  | _ => exact absurd h nofun

/-! ## Lines of reports -/

/-- Blanks are shown as spaces. -/
theorem Diagnostic.getElem?_shown (s : String) (i : Nat) :
    (shown s).toList[i]? = s.toList[i]?.map fun c => if isBlank c then ' ' else c := by
  rw [shown, String.toList_ofList, List.getElem?_map]

theorem Diagnostic.onOneLine_shown (s : String) : OnOneLine (shown s) := by
  refine onOneLine_ofList fun c hc => ?_
  obtain ⟨a, _, rfl⟩ := List.mem_map.1 hc
  split
  · rfl
  · rename_i ha
    exact isFileBreak_of_not_blank (Bool.eq_false_iff.2 ha)

/-- There are no breaks in the lines of a report if there are none in what it is made of. -/
theorem Diagnostic.onOneLine_of_mem_lines {d : Diagnostic} {p : Nat} (hp : d.position = p)
    (hcode : OnOneLine d.code) (hmessage : OnOneLine d.message) (hsource : OnOneLine d.source)
    (hhelp : OnOneLine d.help) (hsuggestions : ∀ t ∈ d.suggestions, OnOneLine t) :
    ∀ l ∈ d.lines, OnOneLine l := by
  have hmargin : OnOneLine margin := by decide +kernel
  have hheading : OnOneLine d.heading := by
    refine onOneLine_append (onOneLine_append (onOneLine_append (by decide +kernel) ?_)
      (by decide +kernel)) hmessage
    split
    · exact fun _ hc => absurd hc List.not_mem_nil
    · exact onOneLine_append (onOneLine_append (by decide +kernel) hcode) (by decide +kernel)
  have hplace : OnOneLine d.place := by
    refine onOneLine_append (onOneLine_append (onOneLine_append (by decide +kernel) hsource)
      (by decide +kernel)) ?_
    have hcolumn : toString d.column = String.ofList (Nat.toDigits 10 (p + 1)) := by
      rw [column, hp]
      exact Nat.toString_eq_ofList_toDigits
    rw [hcolumn]
    exact onOneLine_ofList fun c hc => isFileBreak_of_not_blank <|
      isBlank_eq_false_of_isAlphanum <| isAlphanum_of_isDigit <|
        Nat.isDigit_of_mem_toDigits (by decide) (by decide) hc
  have hcaret : OnOneLine d.caret := by
    refine onOneLine_ofList (List.forall_mem_append.2
      ⟨fun c hc => ?_, List.forall_mem_singleton.2 rfl⟩)
    rw [List.eq_of_mem_replicate hc]
    rfl
  have hhelpLines : ∀ l ∈ d.helpLines, OnOneLine l := by
    rw [helpLines]
    split
    · exact fun _ hl => absurd hl List.not_mem_nil
    · exact List.forall_mem_singleton.2 (onOneLine_append (by decide +kernel) hhelp)
  have hsuggestionLines : ∀ l ∈ d.suggestionLines, OnOneLine l := by
    rw [suggestionLines]
    split
    · exact fun _ hl => absurd hl List.not_mem_nil
    · refine List.forall_mem_cons.2 ⟨by decide +kernel, fun l hl => ?_⟩
      obtain ⟨t, ht, rfl⟩ := List.mem_map.1 hl
      exact onOneLine_append (by decide +kernel) (hsuggestions t ht)
  refine List.forall_mem_append.2 ⟨List.forall_mem_append.2 ⟨?_, hhelpLines⟩, hsuggestionLines⟩
  exact List.forall_mem_cons.2 ⟨hheading, List.forall_mem_cons.2 ⟨hplace, List.forall_mem_cons.2
    ⟨onOneLine_append hmargin (onOneLine_shown _),
      List.forall_mem_singleton.2 (onOneLine_append hmargin hcaret)⟩⟩⟩

theorem Fault.Kind.onOneLine_code (k : Kind) : OnOneLine k.code := by
  have hcodes : ∀ k ∈ all, OnOneLine k.code := by decide +kernel
  exact hcodes k k.mem_all

theorem Diagnostic.length_helpLines (d : Diagnostic) :
    d.helpLines.length = if d.help = "" then 0 else 1 := by
  rw [helpLines]
  by_cases h : d.help = "" <;> simp [h]

theorem Diagnostic.length_suggestionLines (d : Diagnostic) :
    d.suggestionLines.length =
      if d.suggestions.length = 0 then 0 else 1 + d.suggestions.length := by
  rw [suggestionLines]
  cases d.suggestions with
  | nil => rfl
  | cons t ts => simp [Nat.add_comm]

/-- A report has four lines, and then those of the help and of the suggestions. -/
theorem Failure.length_lines (f : Failure) :
    f.diagnostic.lines.length = 4 + (if f.fault.help?.isSome then 1 else 0) +
      if f.fault.suggestions.length = 0 then 0 else 1 + f.fault.suggestions.length := by
  have hhelp : f.diagnostic.helpLines.length = if f.fault.help?.isSome then 1 else 0 := by
    refine f.diagnostic.length_helpLines.trans ?_
    show (if f.fault.help?.getD "" = "" then 0 else 1) = _
    cases h : f.fault.help? with
    | none => rfl
    | some t =>
      rw [Option.getD_some, if_neg (Fault.help_ne_empty h), Option.isSome_some, if_pos rfl]
  have hsuggestions := f.diagnostic.length_suggestionLines
  rw [Diagnostic.lines, List.length_append, List.length_append, hhelp, hsuggestions]
  rfl

namespace Evaluator

/-- What a failure says stands on one line each, and the fault was at an offset in the text. -/
theorem oneLine_of_evaluate_error {v : Evaluator} {s : String} {f : Failure}
    (h : v.evaluate s = .error f) :
    f.fault.OneLine ∧ ∃ p : Nat, f.position = p ∧ p ≤ s.toList.length := by
  have harises := arises_of_evaluate_error h
  obtain ⟨e, c, hrun, rfl⟩ := exists_of_evaluate_error h
  -- Where the fault is says what its texts quote, and why it arises the rest of them.
  have hstart : Reader.Within s.toList (Cursor.start s) := ⟨⟨[], .refl _⟩, List.suffix_refl _⟩
  have hread := Reader.locates_whole (m := v.machine) v.frames hstart
  rw [hrun] at hread
  obtain ⟨p, hp, hle, hpoints⟩ := hread
  exact ⟨Fault.oneLine harises hpoints, p, hp, hle⟩

/-- The lines of the report on a failure are found again, and the fault was at an offset in the
    text. -/
theorem lines_of_evaluate_error {v : Evaluator} {s : String} {f : Failure}
    (hsource : OnOneLine v.source) (h : v.evaluate s = .error f) :
    fileLines f.render = f.diagnostic.lines ∧ f.text = s ∧ f.source = v.source ∧
      ∃ p : Nat, f.position = p ∧ p ≤ s.toList.length := by
  obtain ⟨htext, hnamed⟩ := text_and_source_of_evaluate h
  obtain ⟨hfault, p, hp, hle⟩ := oneLine_of_evaluate_error h
  have hhelp : OnOneLine (f.fault.help?.getD "") := by
    cases hhelp : f.fault.help? with
    | none => exact fun _ hc => absurd hc List.not_mem_nil
    | some t => exact hfault.help t hhelp
  have hplace : OnOneLine f.source := by rw [hnamed]; exact hsource
  refine ⟨fileLines_unlines ?_, htext, hnamed, p, hp, hle⟩
  exact Diagnostic.onOneLine_of_mem_lines hp (Fault.Kind.onOneLine_code _) hfault.message
    hplace hhelp hfault.suggestions

/-- The report on a failure has its caret under the character at fault, or just past the end
    of the text. Its lines are the heading, the place, the text with spaces for blanks, the
    caret, and then those of the help and of the suggestions, if there are any. -/
theorem fileLines_render_of_evaluate (v : Evaluator) (s : String) (f : Failure)
    (hsource : OnOneLine v.source) (h : v.evaluate s = .error f) :
    let lines := fileLines f.render
    ∃ (p : Nat) (shown third fourth : String), f.position = p ∧ p ≤ s.toList.length ∧
      lines.length = 4 + (if f.fault.help?.isSome then 1 else 0) +
        (if f.fault.suggestions.length = 0 then 0 else 1 + f.fault.suggestions.length) ∧
      lines[1]? = some ("  --> " ++ v.source ++ ", column " ++ toString (p + 1)) ∧
      lines[2]? = some third ∧ third = "   | " ++ shown ∧
      shown.toList.length = s.toList.length ∧
      (∀ i : Nat, shown.toList[i]? = s.toList[i]?.map fun c => if isBlank c then ' ' else c) ∧
      lines[3]? = some fourth ∧ fourth = "   | " ++ String.ofList (List.replicate p ' ' ++ ['^']) ∧
      third.toList[fourth.toList.idxOf '^']? =
        s.toList[p]?.map (fun c => if isBlank c then ' ' else c) ∧
      (fourth.toList.idxOf '^' = third.toList.length ↔ p = s.toList.length) := by
  obtain ⟨hlines, htext, hfsource, p, hp, hle⟩ := lines_of_evaluate_error hsource h
  dsimp only
  rw [hlines]
  have hmargin : "   | ".toList.length = 5 := by decide
  have hthird : ("   | " ++ Diagnostic.shown s).toList.length = 5 + s.toList.length := by
    rw [String.toList_append, List.length_append, hmargin, Diagnostic.length_shown]
  -- There is no caret before that under the position.
  have hcaret : ("   | " ++ String.ofList (List.replicate p ' ' ++ ['^'])).toList.idxOf '^' =
      5 + p := by
    have hspaces : '^' ∉ List.replicate p ' ' := fun hc =>
      absurd (List.eq_of_mem_replicate hc) (by decide)
    rw [String.toList_append, List.idxOf_append_of_notMem (by decide), hmargin,
      String.toList_ofList, List.idxOf_append_of_notMem hspaces, List.length_replicate,
      List.idxOf_cons_self]
    rfl
  refine ⟨p, Diagnostic.shown s, _, _, hp, hle, f.length_lines, ?_, ?_, rfl,
    Diagnostic.length_shown s, Diagnostic.getElem?_shown s, ?_, rfl, ?_, ?_⟩
  · show some ("  --> " ++ f.source ++ ", column " ++ toString (f.position + 1)) = _
    rw [hfsource, hp]
    rfl
  · show some (Diagnostic.margin ++ Diagnostic.shown f.text) = _
    rw [htext]
    rfl
  · show some (Diagnostic.margin ++
      String.ofList (List.replicate f.position.toNat ' ' ++ ['^'])) = _
    rw [hp]
    rfl
  · rw [hcaret, String.toList_append, List.getElem?_append_right (by rw [hmargin]; omega), hmargin,
      Nat.add_sub_cancel_left, Diagnostic.getElem?_shown]
  · rw [hcaret, hthird]
    omega

/-- The caret is under the dollar sign, though there is a line feed before it. -/
theorem fileLines_render_of_evaluate_lineFeed :
    ∃ f, OnOneLine "sums" ∧
      ({ machine := .plain, source := "sums" } : Evaluator).evaluate "1 +\n\t$2" = .error f ∧
      (fileLines f.render).length = 5 ∧
      (fileLines f.render)[1]? = some "  --> sums, column 6" ∧
      (fileLines f.render)[3]? = some "   |      ^" := by
  have hsource : OnOneLine "sums" := by decide +kernel
  have h : ({ machine := .plain, source := "sums" } : Evaluator).evaluate "1 +\n\t$2" = .error
      { fault := .unexpectedCharacter (some '$'), text := "1 +\n\t$2", position := 5,
        source := "sums" } :=
    faultOf?_eq_some_iff.1 (by decide +kernel)
  obtain ⟨p, _, _, _, hp, _, hlength, hplace, _, _, _, _, hfourth, hcaret, _, _⟩ :=
    fileLines_render_of_evaluate _ _ _ hsource h
  obtain rfl : 5 = p := Int.ofNat.inj hp
  rw [hcaret] at hfourth
  refine ⟨_, hsource, h, hlength, hplace.trans ?_, hfourth.trans ?_⟩ <;> decide +kernel

end Evaluator

end Calculator
