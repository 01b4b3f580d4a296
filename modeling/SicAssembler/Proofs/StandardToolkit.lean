import Mathlib.Data.List.Induction
import SicAssembler.Command.Standard
import SicAssembler.Proofs.CommandLine

/-!
The standard toolkit keeps the laws that the command relies on (`Toolkit.lawful_standard`). A command
line is accepted after its paths have been looked up as they were given, and one that asks for a
verbose run is followed as if it did not, up to that (`Request.parse_of_verbose`). Text is still text
without its control sequences.
-/

namespace SicAssembler

theorem ok_of_forM {ε α : Type} {f : α → Except ε Unit} {xs : List α} (done : xs.forM f = .ok ())
    {x : α} (member : x ∈ xs) : f x = .ok () := by
  induction xs with
  | nil => cases member
  | cons y rest ih =>
    obtain ⟨_, first, others⟩ := bind_ok done
    rcases List.mem_cons.mp member with rfl | later
    · exact first
    · exact ih others later

theorem eraseDups_filter {α : Type} [DecidableEq α] (p : α → Bool) (xs : List α) :
    (xs.filter p).eraseDups = xs.eraseDups.filter p := by
  -- From the end, for it is the first of equal elements that is kept.
  induction xs using List.reverseRecOn with
  | nil => rfl
  | append_singleton xs x ih =>
    have last : ∀ ys : List α, (ys ++ [x]).eraseDups = ys.eraseDups ++ if x ∈ ys then [] else [x] := by
      intro ys
      rw [List.eraseDups_append]
      by_cases known : x ∈ ys <;> simp [List.removeAll, known, List.eraseDups_cons]
    rw [List.filter_append, last, List.filter_append, ← ih]
    by_cases kept : p x = true
    · by_cases known : x ∈ xs <;> simp [kept, last, known]
    · by_cases known : x ∈ xs <;> simp [kept, known]

theorem forM_filter {ε α : Type} {p : α → Bool} {f : α → Except ε Unit} {xs : List α}
    (idle : ∀ x, p x = false → f x = .ok ()) : (xs.filter p).forM f = xs.forM f := by
  induction xs with
  | nil => rfl
  | cons x rest ih =>
    have step : ∀ ys : List α, (x :: ys).forM f = f x >>= fun _ => ys.forM f := fun _ => rfl
    rw [step, ← ih]
    cases kept : p x with
    | true => rw [List.filter_cons_of_pos kept, step]
    | false =>
      rw [List.filter_cons_of_neg (by simp [kept]), idle x kept]
      rfl

namespace Command

/-! ### Paths that are accepted -/

namespace Arguments

variable {disk : Disk} {arguments : Arguments} {options : Options}

theorem checkPath_ok {parameter : Parameter} {path : RawText} {mustExist : Bool}
    (checked : checkPath disk parameter path mustExist = .ok ()) :
    Path.hasNul path = false ∧ (mustExist = true → disk.HasFile path) := by
  unfold checkPath at checked
  split at checked
  · cases checked
  · rename_i clean
    have clean : Path.hasNul path = false := by simpa using clean
    refine ⟨clean, fun needed => ?_⟩
    split at checked
    · rename_i content found
      refine ⟨clean, content, ?_⟩
      rw [Disk.stored, found]
      rfl
    · cases checked
    · rw [if_pos needed] at checked
      cases checked

theorem mem_given {switch : Switch} {path : RawText} (value : arguments.value? switch = some path) :
    switch ∈ arguments.given := by
  unfold value? at value
  obtain ⟨setting, found, _⟩ := Option.bind_eq_some_iff.mp value
  have member := List.mem_of_find?_eq_some found
  have named : setting.switch = switch := by simpa using List.find?_some found
  rw [given, List.mem_eraseDups, List.mem_map]
  exact ⟨setting, List.mem_reverse.mp member, named⟩

theorem input_ok {path : RawText} (taken : arguments.input disk = .ok path) :
    disk.HasFile path := by
  unfold input at taken
  split at taken
  · cases taken
  · obtain ⟨_, checked, taken⟩ := bind_ok taken
    split at taken
    · obtain rfl := pure_ok taken
      exact (checkPath_ok checked).2 rfl
    · cases taken

theorem accepted_of_request (asked : arguments.request disk = .ok (.assemble options)) :
    options.Accepted disk := by
  unfold request at asked
  split at asked
  · cases asked
  · cases asked
  · obtain ⟨_, switches, asked⟩ := bind_ok asked
    obtain ⟨input, taken, asked⟩ := bind_ok asked
    have checked : ∀ switch path, arguments.value? switch = some path →
        checkPath disk (.value switch) path (switch == .opcodes) = .ok () := by
      intro switch path value
      have done := ok_of_forM switches (mem_given value)
      rwa [checkSwitch, value] at done
    cases asked
    refine ⟨input_ok taken, fun path value => ?_, fun path value => ?_, fun path value => ?_⟩
    · exact (checkPath_ok (checked .opcodes path value)).2 rfl
    · exact (checkPath_ok (checked .output path value)).1
    · exact (checkPath_ok (checked .listing path value)).1

end Arguments

theorem Request.accepted_of_parse {disk : Disk} {arguments : List RawText} {options : Options}
    (parsed : Request.parse disk arguments = .ok (.assemble options)) : options.Accepted disk := by
  unfold Request.parse at parsed
  split at parsed
  · cases parsed
  · exact Arguments.accepted_of_request parsed

/-! ### Command lines for verbose runs -/

def Setting.Fits (setting : Setting) : Prop :=
  setting.value = none ∨ setting.switch.takesValue = true

def Reading.Fits : Reading → Prop
  | complete settings => ∀ setting ∈ settings, setting.Fits
  | awaiting settings switch _ =>
    (∀ setting ∈ settings, setting.Fits) ∧ switch.takesValue = true

namespace Reading

theorem fits_ofLong {switch : Switch} {spelling : RawText} {value : Option RawText} {reading : Reading}
    (read : ofLong switch spelling value = .ok reading) : reading.Fits := by
  unfold ofLong at read
  split at read
  · rename_i takes
    cases read
    exact fun setting member => .inr (by simpa [List.mem_singleton.mp member] using takes)
  · rename_i takes
    cases read
    exact ⟨by simp, takes⟩
  · cases read
  · cases read
    exact fun setting member => .inl (by rw [List.mem_singleton.mp member])

theorem Fits.after {reading : Reading} {setting : Setting} (fits : reading.Fits)
    (own : setting.Fits) : (reading.after setting).Fits := by
  cases reading with
  | complete settings => exact List.forall_mem_cons.mpr ⟨own, fits⟩
  | awaiting settings switch spelling => exact ⟨List.forall_mem_cons.mpr ⟨own, fits.1⟩, fits.2⟩

theorem fits_ofLetters {letters : RawText} {reading : Reading}
    (read : ofLetters letters = .ok reading) : reading.Fits := by
  induction letters generalizing reading with
  | nil =>
    cases read
    exact fun setting member => by cases member
  | cons letter rest ih =>
    unfold ofLetters at read
    dsimp only at read
    split at read
    · cases read
    · rename_i switch _
      split at read
      · rename_i takes
        split at read
        · cases read
          exact ⟨by simp, takes⟩
        · cases read
          exact fun setting member => .inr (by simpa [List.mem_singleton.mp member] using takes)
      · obtain ⟨others, taken, rfl⟩ := exists_of_map_ok read
        exact (ih taken).after (.inl rfl)

theorem fits_ofArgument {argument : RawText} {reading : Reading}
    (read : ofArgument argument = .ok reading) : reading.Fits := by
  unfold ofArgument at read
  dsimp only at read
  split at read
  · exact fits_ofLong read
  · split at read
    · cases read
    · exact fits_ofLetters read

end Reading

namespace Arguments

theorem fits_scan {words : List RawText} {arguments : Arguments}
    (scanned : scan words = .ok arguments) : ∀ setting ∈ arguments.settings, setting.Fits := by
  fun_induction scan words generalizing arguments with
  | case1 =>
    cases scanned
    simp
  | case2 =>
    cases scanned
    simp
  | case3 argument rest _ _ ih =>
    obtain ⟨others, taken, rfl⟩ := exists_of_map_ok scanned
    have same : (withOperand argument others).settings = others.settings := rfl
    rw [same]
    exact ih taken
  | case4 => cases scanned
  | case5 argument rest _ _ settings read ih =>
    obtain ⟨others, taken, rfl⟩ := exists_of_map_ok scanned
    exact List.forall_mem_append.mpr ⟨Reading.fits_ofArgument read, ih taken⟩
  | case6 => cases scanned
  | case7 argument _ _ settings switch spelling read value rest ih =>
    obtain ⟨others, taken, rfl⟩ := exists_of_map_ok scanned
    obtain ⟨fits, takes⟩ := Reading.fits_ofArgument read
    refine List.forall_mem_append.mpr ⟨List.forall_mem_append.mpr ⟨fits, ?_⟩, ih taken⟩
    exact List.forall_mem_singleton.mpr (.inr takes)

def quieted (arguments : Arguments) : Arguments :=
  { arguments with settings := arguments.settings.filter (·.switch != .verbose) }

variable {arguments : Arguments} {disk : Disk} {switch : Switch}

theorem given_quieted : arguments.quieted.given = arguments.given.filter (· != .verbose) := by
  rw [given, given, ← eraseDups_filter, List.filter_map, quieted]
  rfl

theorem find?_given_quieted :
    arguments.quieted.given.find? Switch.isAnswer = arguments.given.find? Switch.isAnswer := by
  rw [given_quieted, List.find?_filter]
  congr 1
  funext switch
  cases switch <;> rfl

theorem value?_quieted (other : switch ≠ .verbose) :
    arguments.quieted.value? switch = arguments.value? switch := by
  rw [value?, value?, quieted, ← List.filter_reverse, List.find?_filter]
  congr 2
  funext setting
  by_cases own : setting.switch = switch
  · simp [own, other]
  · simp [own]

theorem has_quieted (other : switch ≠ .verbose) :
    arguments.quieted.has switch = arguments.has switch := by
  rw [has, has, quieted, List.any_filter]
  congr 1
  funext setting
  by_cases own : setting.switch = switch
  · simp [own, other]
  · simp [own]

theorem value?_verbose_quieted : arguments.quieted.value? .verbose = none := by
  have absent : arguments.quieted.settings.reverse.find? (·.switch == .verbose) = none := by
    apply List.find?_eq_none.mpr
    intro setting member
    simpa [quieted] using (List.mem_filter.mp (List.mem_reverse.mp member)).2
  rw [value?, absent]
  rfl

theorem value?_verbose_of_scan {words : List RawText} (scanned : scan words = .ok arguments) :
    arguments.value? .verbose = none := by
  unfold value?
  cases found : arguments.settings.reverse.find? (·.switch == .verbose) with
  | none => rfl
  | some setting =>
    have member := List.mem_reverse.mp (List.mem_of_find?_eq_some found)
    have named : setting.switch = .verbose := by simpa using List.find?_some found
    rcases fits_scan scanned setting member with empty | takes
    · exact empty
    · rw [named] at takes
      cases takes

theorem quieted_eq_self (silent : arguments.has .verbose = false) : arguments.quieted = arguments := by
  have others : arguments.settings.filter (·.switch != .verbose) = arguments.settings := by
    apply List.filter_eq_self.mpr
    intro setting member
    simpa using List.any_eq_false.mp silent setting member
  rw [quieted, others]

theorem quieted_withSettings :
    (arguments.withSettings [⟨.verbose, none⟩]).quieted = arguments.quieted := rfl

end Arguments

theorem Arguments.request_of_verbose {arguments : Arguments} (disk : Disk)
    (valueless : arguments.value? .verbose = none) (verbose : arguments.has .verbose = true) :
    arguments.request disk = (arguments.quieted.request disk).map Request.aloud := by
  have same : arguments.quieted.checkSwitch disk = arguments.checkSwitch disk := by
    funext switch
    unfold checkSwitch
    by_cases own : switch = .verbose
    · rw [own, value?_verbose_quieted, valueless]
    · rw [value?_quieted own]
  have idle : ∀ switch, (switch != .verbose) = false → arguments.checkSwitch disk switch = .ok () := by
    intro switch own
    rw [show switch = .verbose by simpa using own, checkSwitch, valueless]
  have input : arguments.quieted.input disk = arguments.input disk := rfl
  unfold request
  rw [find?_given_quieted, same, given_quieted, forM_filter idle, input]
  cases arguments.given.find? Switch.isAnswer with
  | some switch => cases switch <;> rfl
  | none =>
    dsimp only
    cases arguments.given.forM (arguments.checkSwitch disk) with
    | error refusal => rfl
    | ok _ =>
      cases arguments.input disk with
      | error refusal => rfl
      | ok path =>
        rw [value?_quieted (by decide), value?_quieted (by decide), value?_quieted (by decide),
          has_quieted (by decide), has_quieted (by decide), has_quieted (by decide), verbose]
        rfl

theorem Request.map_aloud_aloud {ε : Type} (request : Except ε Request) :
    (request.map aloud).map aloud = request.map aloud := by
  rcases request with _ | _ | _ <;> rfl

theorem Request.parse_verbose {disk : Disk} {words : List RawText} {request : Request}
    (asked : Request.parse disk words = .ok request) :
    Request.parse disk ("-v" :: words) = .ok request.aloud := by
  unfold Request.parse at asked
  split at asked
  · cases asked
  · rename_i arguments scanned
    let spoken := arguments.withSettings [⟨.verbose, none⟩]
    have scanned_spoken : Arguments.scan ("-v" :: words) = .ok spoken := by
      have first : Arguments.scan ("-v" :: words) =
          (Arguments.scan words).map (Arguments.withSettings [⟨.verbose, none⟩]) := rfl
      rw [first, scanned]
      rfl
    have loud := Arguments.request_of_verbose disk (Arguments.value?_verbose_of_scan scanned_spoken) rfl
    have again : (arguments.quieted.request disk).map aloud = (arguments.request disk).map aloud := by
      cases verbose : arguments.has .verbose with
      | true =>
        rw [Arguments.request_of_verbose disk (Arguments.value?_verbose_of_scan scanned) verbose,
          map_aloud_aloud]
      | false => rw [Arguments.quieted_eq_self verbose]
    rw [Request.parse, scanned_spoken]
    dsimp only
    rw [loud, Arguments.quieted_withSettings, again, asked]
    rfl

end Command

/-! ### Printed text -/

namespace RawText

theorem strayFrom_eq_none {raw : RawText} (text : ∀ glyph ∈ raw, glyph.char?.isSome = true)
    (position : Nat) : strayFrom position raw = none := by
  induction raw generalizing position with
  | nil => rfl
  | cons glyph rest ih =>
    obtain ⟨own, others⟩ := List.forall_mem_cons.mp text
    cases glyph with
    | char c => exact ih others (position + 1)
    | byte b => cases own

theorem char?_of_mem_ofString {text : String} {glyph : Glyph} (member : glyph ∈ ofString text) :
    glyph.char?.isSome = true := by
  obtain ⟨c, _, rfl⟩ := List.mem_map.mp member
  rfl

theorem stray?_ofString (text : String) : stray? text = none :=
  strayFrom_eq_none (fun _ => char?_of_mem_ofString) 0

theorem mem_dropSequence {piece : RawText} {glyph : Glyph} (member : glyph ∈ dropSequence piece) :
    glyph = Glyph.controlStart ∨ glyph ∈ piece := by
  unfold dropSequence at member
  split at member
  · rename_i rest
    split at member
    · rename_i kept after
      split at member
      · have inside : glyph ∈ rest.dropWhile isParameter := after ▸ List.mem_cons_of_mem _ member
        exact .inr (List.mem_cons_of_mem _ (List.dropWhile_subset _ inside))
      · exact List.mem_cons.mp member
    · exact List.mem_cons.mp member
  · exact List.mem_cons.mp member

theorem mem_plain {raw : RawText} {glyph : Glyph} (member : glyph ∈ plain raw) :
    glyph = Glyph.controlStart ∨ glyph ∈ raw := by
  unfold plain at member
  split at member
  · cases member
  · rename_i first pieces split
    have inside {piece : RawText} (found : piece ∈ first :: pieces) (own : glyph ∈ piece) :
        glyph ∈ raw :=
      Text.mem_of_mem_splitOn (split ▸ found) own
    rcases List.mem_append.mp member with front | back
    · exact .inr (inside List.mem_cons_self front)
    · obtain ⟨piece, found, dropped⟩ := List.mem_flatMap.mp back
      rcases mem_dropSequence dropped with rfl | own
      · exact .inl rfl
      · exact .inr (inside (List.mem_cons_of_mem _ found) own)

theorem plain_of_not_mem {raw : RawText} (unstyled : Glyph.controlStart ∉ raw) : plain raw = raw := by
  unfold plain
  rw [List.splitOn_eq_singleton unstyled]
  exact List.append_nil raw

theorem stray?_plain (text : String) : stray? (plain text) = none := by
  refine strayFrom_eq_none (fun glyph member => ?_) 0
  rcases mem_plain member with rfl | own
  · rfl
  · exact char?_of_mem_ofString own

end RawText

theorem Command.Toolkit.lawful_standard (out err : Output) : (standard out err).Lawful where
  accepted := Request.accepted_of_parse
  verbose := Request.parse_verbose
  unstyle := RawText.plain_of_not_mem
  text text := by
    unfold standard shown
    dsimp only
    split
    · split
      · exact RawText.stray?_ofString text
      · exact RawText.stray?_plain text
    · rfl

end SicAssembler
