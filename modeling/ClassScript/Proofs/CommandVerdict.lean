import ClassScript.CommandLine.Run
import ClassScript.Proofs.DebugMode
import ClassScript.Proofs.FragmentNesting
import ClassScript.Proofs.RoundTrip

/-!
The two commands on one program. Checking and emitting ask for different settings,
but neither debug mode, a name nor text around the program decides whether it can
be emitted. So a check foretells how emission ends, and measures what it would
print.
-/

namespace ClassScript.CommandLine

open Emission Output

section Files

variable {σ α β ι : Type}

/-- What a step comes to on these files. -/
def resultOn (files : σ) (step : Step (StateM σ) α) : Except CommandError α :=
  ((step.run.run []).run files).1.1

/-- Whether a result is a success, and its error if it is none. -/
def verdict (result : Except CommandError α) : Except CommandError Unit :=
  result.map fun _ => ()

/-- Reading leaves all files as they are. -/
def FileAccess.ReadsOnly (access : FileAccess (StateM σ)) : Prop :=
  ∀ path files, ((access.read path).run files).2 = files

/-- The path leads to a text. -/
def FileAccess.Readable (access : FileAccess (StateM σ)) (files : σ) (path : String) : Prop :=
  ∃ text, ((access.read path).run files).1 = .ok text

/-- The settings that parameters ask for, with these fragments. -/
def EmitParams.config (params : EmitParams) (fragments : List Fragment) : Config where
  target := params.target
  debug := params.debug
  outputName := params.name
  nativeSwitch := !params.noSwitch
  fragments := fragments

/-- Whatever the log, the step comes to this result and leaves the files. -/
def Settles (files : σ) (step : Step (StateM σ) α) (result : Except CommandError α) : Prop :=
  ∀ log, ∃ log', (step.run.run log).run files = ((result, log'), files)

theorem bind_error (e : CommandError) (f : α → Except CommandError β) :
    (Except.error e >>= f) = .error e := rfl

theorem bind_ok (a : α) (f : α → Except CommandError β) : (Except.ok a >>= f) = f a := rfl

theorem Settles.resultOn_eq {files : σ} {step : Step (StateM σ) α} {result : Except CommandError α}
    (h : Settles files step result) : resultOn files step = result := by
  obtain ⟨log, hrun⟩ := h []
  rw [resultOn, hrun]

namespace Settles

variable {files : σ} {access : FileAccess (StateM σ)}

theorem pure (a : α) : Settles files (Pure.pure a : Step (StateM σ) α) (.ok a) :=
  fun log => ⟨log, rfl⟩

theorem bind {x : Step (StateM σ) α} {f : α → Step (StateM σ) β} {first : Except CommandError α}
    {rest : α → Except CommandError β} (h : Settles files x first)
    (hrest : ∀ a, first = .ok a → Settles files (f a) (rest a)) :
    Settles files (x >>= f) (first >>= rest) := by
  intro log
  obtain ⟨log', hrun⟩ := h log
  have hbind : (((x >>= f).run.run log).run files) =
      ((ExceptT.bindCont f first).run log').run files := by
    change (((ExceptT.bindCont f ((x.run.run log).run files).1.1).run
      ((x.run.run log).run files).1.2).run ((x.run.run log).run files).2) = _
    rw [hrun]
  rw [hbind]
  cases first with
  | error e => exact ⟨log', rfl⟩
  | ok a => exact hrest a rfl log'

/-- A first step that succeeds. -/
theorem after {x : Step (StateM σ) α} {f : α → Step (StateM σ) β} {a : α}
    {result : Except CommandError β} (h : Settles files x (.ok a))
    (hrest : Settles files (f a) result) : Settles files (x >>= f) result := by
  have hbind : Settles files (x >>= f) (.ok a >>= fun _ => result) :=
    bind h fun _ ha => Except.ok.inj ha ▸ hrest
  exact hbind

/-- Steps for the items of a list that all succeed. -/
theorem mapM {f : ι → Step (StateM σ) α} {Q : α → Prop} {items : List ι}
    (h : ∀ i ∈ items, ∃ a, Q a ∧ Settles files (f i) (.ok a)) :
    ∃ values, (∀ a ∈ values, Q a) ∧ Settles files (items.mapM f) (.ok values) := by
  induction items with
  | nil => exact ⟨[], nofun, pure []⟩
  | cons i rest ih =>
      obtain ⟨a, ha, hfirst⟩ := h i List.mem_cons_self
      obtain ⟨values, hvalues, hrest⟩ := ih fun j hj => h j (List.mem_cons_of_mem _ hj)
      refine ⟨a :: values, List.forall_mem_cons.2 ⟨ha, hvalues⟩, ?_⟩
      rw [List.mapM_cons]
      exact hfirst.after (hrest.after (pure _))

theorem noteEvent (level : Level) (message : String) (values : List (String × String)) :
    Settles files (noteEvent level message values) (.ok ()) :=
  fun log => ⟨log ++ [⟨level, message, values⟩], rfl⟩

theorem orFail {ε : Type} (wrap : ε → CommandError) (result : Except ε α) :
    Settles files (orFail wrap result) (result.mapError wrap) := by
  cases result with
  | ok a => exact pure a
  | error e => exact fun log => ⟨log, rfl⟩

theorem readText (h : access.ReadsOnly) (path : String) :
    Settles files (readText access path)
      (((access.read path).run files).1.mapError (.unreadable path)) := by
  intro log
  have hresult : Settles files
      (CommandLine.orFail (.unreadable path) ((access.read path).run files).1) _ := orFail _ _
  obtain ⟨log', hrun⟩ := hresult log
  refine ⟨log', ?_⟩
  have hstep : ((CommandLine.readText access path).run.run log).run files =
      ((CommandLine.orFail (.unreadable path) ((access.read path).run files).1 :
        Step (StateM σ) String).run.run log).run ((access.read path).run files).2 := rfl
  rw [hstep, h path files, hrun]

theorem loadProgram (h : access.ReadsOnly) (path : String) :
    ∃ result, Settles files (loadProgram access path) result :=
  ⟨_, (readText h path).bind fun text _ => (orFail .load (Program.load text)).bind fun program _ =>
    (noteEvent .debug "program loaded" _).after (pure program)⟩

theorem emission (program : Program) (config : Config) :
    Settles files (emission program config)
      (((emitProgram ⟨program, config, plainTemplater⟩).runFrom .initial).1.mapError .emission) := by
  have hlog : ∀ events : List Event,
      Settles files (modify (· ++ events) : Step (StateM σ) PUnit) (.ok ⟨⟩) :=
    fun events log => ⟨log ++ events, rfl⟩
  exact (hlog _).after (orFail .emission _)

/-- A fragment whose text is read from a file comes into the output as it is. -/
theorem fragment (h : access.ReadsOnly) {path : String} (hpath : access.Readable files path)
    (wrap : String → Fragment) (hwrap : ∀ text, (wrap text).process = false) :
    ∃ f : Fragment, f.process = false ∧
      Settles files (do return wrap (← CommandLine.readText access path)) (.ok f) := by
  obtain ⟨text, htext⟩ := hpath
  have hread : Settles files (CommandLine.readText access path) _ := readText h path
  rw [htext] at hread
  exact ⟨wrap text, hwrap text, hread.after (pure _)⟩

/-- Settings can be read if their fragments can. -/
theorem configOf (h : access.ReadsOnly) {params : EmitParams}
    (hreadable : ∀ path ∈ params.prepend ++ params.append ++ params.wrap.toList,
      access.Readable files path) :
    ∃ fragments : List Fragment, (∀ f ∈ fragments, f.process = false) ∧
      Settles files (configOf access params) (.ok (params.config fragments)) := by
  simp only [List.forall_mem_append] at hreadable
  obtain ⟨⟨hprepend, happend⟩, hwrap⟩ := hreadable
  obtain ⟨before, hbefore, hfirst⟩ :=
    mapM fun path hpath => fragment h (hprepend path hpath) fragmentBefore fun _ => rfl
  obtain ⟨after, hafter, hsecond⟩ :=
    mapM fun path hpath => fragment h (happend path hpath) fragmentAfter fun _ => rfl
  obtain ⟨around, haround, hthird⟩ :=
    mapM fun path hpath => fragment h (hwrap path hpath) fragmentAround fun _ => rfl
  refine ⟨before ++ after ++ around, ?_,
    hfirst.after (hsecond.after (hthird.after (pure _)))⟩
  simp only [List.forall_mem_append]
  exact ⟨⟨hbefore, hafter⟩, haround⟩

end Settles

end Files

section Emissions

variable (program : Program) (target : String) (native : Bool)

/-- The job of a check, which is also that of emission when nothing else is asked
for than a target and a form of switch statements. -/
def checkJob : Job := ⟨program, { target, nativeSwitch := native }, plainTemplater⟩

/-- Matching ends are both successes or the same error. -/
theorem map_eq_of_matching {S : State → State → Prop} {R : Result → Result → Prop}
    {p q : Except EmitError Result × State} (h : Matching S R p q) :
    p.1.map (fun _ => ()) = q.1.map fun _ => () := by
  cases h with
  | ok => rfl
  | error => rfl

/-- Without debug mode a name makes no difference to what is emitted. -/
theorem checkJob_named (name : String) :
    Matching SameSoFar (fun r r' => r.source = r'.source)
      ((emitProgram ((checkJob program target native).debugging false name)).runFrom .initial)
      ((emitProgram (checkJob program target native)).runFrom .initial) := by
  refine (lowerProgram_debugging (checkJob program target native) false false name
    "program.js").emitProgram (fun d e hde => ?_) .initial
  obtain ⟨text, hd, he⟩ := hde
  exact hd.trans he.symm

/-- Neither debug mode nor a name nor fragments that come in as they are decide
whether a program is emitted. -/
theorem checkJob_verdict (debug : Bool) (name : String) {fragments : List Fragment}
    (hfragments : ∀ f ∈ fragments, f.process = false) :
    ((emitProgram (((checkJob program target native).debugging debug name).around
        fragments)).runFrom .initial).1.map (fun _ => ()) =
      ((emitProgram (checkJob program target native)).runFrom .initial).1.map fun _ => () := by
  let job := (checkJob program target native).debugging debug name
  have hhalves : List.Forall₂ (fun f half => job.halves f = .ok half) fragments
      (fragments.map Fragment.parts) := by
    rw [List.forall₂_map_right_iff, List.forall₂_same]
    intro f hf
    rw [Job.halves, hfragments f hf]
    rfl
  have hwrapped := emitProgram_wrapped job hhalves .initial
  have hdebugging := (lowerProgram_debugging (checkJob program target native) debug false name
    "program.js").emitProgram (Q := fun _ _ => True) (fun _ _ _ => trivial) .initial
  exact (map_eq_of_matching hwrapped).trans (map_eq_of_matching hdebugging)

end Emissions

section Commands

variable {σ : Type} {access : FileAccess (StateM σ)} {files : σ}

/-- Both commands are asked for the same program, target and form of switch
statements, and emission prints to the standard output. -/
structure CheckParams.Foresees (check : CheckParams) (emit : EmitParams) : Prop where
  programPath : emit.programPath = check.programPath
  target : emit.target = check.target
  noSwitch : emit.noSwitch = check.noSwitch
  outDir : emit.outDir = none

/-- The parameters without debug mode and without fragments. -/
def EmitParams.plain (emit : EmitParams) : EmitParams :=
  { emit with debug := false, prepend := [], append := [], wrap := none }

/-- What a check says of so many classes, bytes and stubbed methods. -/
def report (classes bytes stubs : Nat) : String :=
  "ok: " ++ Text.natural classes ++ " classes, " ++ Text.natural bytes ++ " bytes, " ++
    Text.natural stubs ++ " stubbed methods\n"

/-- What a check says about so many classes and this source. -/
def summary (classes : Nat) (source : String) : String :=
  report classes source.utf8ByteSize (Text.occurrences stubMarker.toList source.toList)

/-- A check fails where loading or emission fails, and sums up what is emitted. -/
theorem runCheck_settles {check : CheckParams} {loaded : Except CommandError Program}
    (hload : Settles files (loadProgram access check.programPath) loaded) :
    Settles files (runCheck access check) (do
      let program ← loaded
      let result ← ((emitProgram (checkJob program check.target
        (!check.noSwitch))).runFrom .initial).1.mapError .emission
      .ok (summary program.classes.length result.source)) :=
  hload.bind fun program _ => (Settles.emission program _).bind fun _ _ => .pure _

/-- Emission to the standard output prints the source. -/
theorem runEmit_settles {emit : EmitParams} {loaded : Except CommandError Program}
    {fragments : List Fragment} (houtDir : emit.outDir = none)
    (hload : Settles files (loadProgram access emit.programPath) loaded)
    (hconfig : Settles files (configOf access emit) (.ok (emit.config fragments))) :
    Settles files (runEmit access emit) (do
      let program ← loaded
      let result ← ((emitProgram ⟨program, emit.config fragments, plainTemplater⟩).runFrom
        .initial).1.mapError .emission
      .ok result.source) := by
  refine hload.bind fun program _ => hconfig.after ?_
  refine (Settles.emission program _).bind fun result _ => ?_
  have hlast : Settles files (do
      noteEvent .info "entry point descriptor" [("entry", result.entryPoint.toJson.text)]
      return result.source : Step (StateM σ) String) (.ok result.source) :=
    (Settles.noteEvent _ _ _).after (.pure _)
  rw [houtDir]
  dsimp only
  split
  · exact (Settles.noteEvent _ _ _).after hlast
  · exact hlast

/-- A check succeeds exactly if emission to the standard output does, and otherwise
fails with the same error, whatever name, debug mode and readable fragments are
asked for. It counts the classes of the program and the bytes that are printed
without debug mode and fragments. -/
theorem runCheck_foresees (haccess : access.ReadsOnly) {check : CheckParams} {emit : EmitParams}
    (h : check.Foresees emit)
    (hreadable : ∀ path ∈ emit.prepend ++ emit.append ++ emit.wrap.toList,
      access.Readable files path) :
    verdict (resultOn files (runCheck access check)) =
        verdict (resultOn files (runEmit access emit)) ∧
      ∀ text, resultOn files (runCheck access check) = .ok text →
        ∃ program source,
          resultOn files (loadProgram access check.programPath) = .ok program ∧
          resultOn files (runEmit access emit.plain) = .ok source ∧
          text = summary program.classes.length source := by
  obtain ⟨loaded, hload⟩ : ∃ loaded, Settles files (loadProgram access check.programPath) loaded :=
    Settles.loadProgram haccess _
  obtain ⟨fragments, hfragments, hconfig⟩ := Settles.configOf haccess hreadable
  have hemitLoad : Settles files (loadProgram access emit.programPath) loaded :=
    h.programPath ▸ hload
  have hplainConfig : Settles files (configOf access emit.plain) (.ok (emit.plain.config [])) :=
    .pure _
  have hplain : Settles files (runEmit access emit.plain) _ :=
    runEmit_settles h.outDir hemitLoad hplainConfig
  rw [(runCheck_settles hload).resultOn_eq, (runEmit_settles h.outDir hemitLoad hconfig).resultOn_eq,
    hplain.resultOn_eq, hload.resultOn_eq]
  cases loaded with
  | error e =>
      rw [bind_error, bind_error, bind_error]
      exact ⟨rfl, nofun⟩
  | ok program =>
      have hverdict := checkJob_verdict program check.target (!check.noSwitch) emit.debug emit.name
        hfragments
      have hnamed := checkJob_named program check.target (!check.noSwitch) emit.name
      have hfull : ((checkJob program check.target (!check.noSwitch)).debugging emit.debug
          emit.name).around fragments = ⟨program, emit.config fragments, plainTemplater⟩ := by
        simp only [Job.around, Job.debugging, checkJob, EmitParams.config, h.target, h.noSwitch]
      have hplain : (checkJob program check.target (!check.noSwitch)).debugging false emit.name =
          ⟨program, emit.plain.config [], plainTemplater⟩ := by
        simp only [Job.debugging, checkJob, EmitParams.config, EmitParams.plain, h.target, h.noSwitch]
      rw [hfull] at hverdict
      rw [hplain] at hnamed
      rw [bind_ok, bind_ok, bind_ok]
      generalize (emitProgram (checkJob program check.target (!check.noSwitch))).runFrom .initial =
        checked at hverdict hnamed ⊢
      generalize (emitProgram ⟨program, emit.config fragments, plainTemplater⟩).runFrom .initial =
        emitted at hverdict ⊢
      generalize (emitProgram ⟨program, emit.plain.config [], plainTemplater⟩).runFrom .initial =
        printed at hnamed ⊢
      obtain ⟨emitted, _⟩ := emitted
      cases hnamed with
      | error =>
          cases emitted with
          | ok r => cases hverdict
          | error e =>
              obtain rfl : e = _ := Except.error.inj hverdict
              exact ⟨rfl, nofun⟩
      | ok hsource =>
          cases emitted with
          | error e => cases hverdict
          | ok r =>
              refine ⟨rfl, fun text htext => ⟨program, _, rfl, rfl, ?_⟩⟩
              rw [hsource]
              exact (Except.ok.inj htext).symm

end Commands

section Banner

/-- One file holds the program, all others a comment. -/
def bannered (program : Program) : FileAccess (StateM Unit) where
  read path := pure (.ok (if path = "main.json" then program.toJson.text else "// built"))
  write _ _ _ := pure (.ok ())

/-- That file is read as the program. -/
theorem loadProgram_bannered {program : Program} (h : program.Writable) :
    Settles () (loadProgram (bannered program) "main.json") (.ok program) := by
  have hread : Settles () (readText (bannered program) "main.json") _ :=
    Settles.readText (fun _ _ => rfl) _
  have hprogram : Program.load (if "main.json" = "main.json" then program.toJson.text
      else "// built") = .ok program := (congrArg Program.load (if_pos rfl)).trans h.load_text
  have hload : Settles () (orFail .load (Program.load (if "main.json" = "main.json" then
      program.toJson.text else "// built")) : Step (StateM Unit) Program) (.ok program) := by
    rw [hprogram]
    exact .pure _
  exact hread.after (hload.after ((Settles.noteEvent _ _ _).after (.pure _)))

theorem solo_writable : (solo []).Writable where
  withoutReals := by decide +kernel
  depth_le := by decide +kernel

/-- A check of a program that is emitted in debug mode behind a comment. -/
theorem runCheck_foresees_bannered :
    let access := bannered (solo [])
    let check : CheckParams := ⟨"main.json", "js", false, 0⟩
    let emit : EmitParams :=
      ⟨"main.json", none, "out.js", true, "js", false, ["banner.js"], [], none, 0⟩
    access.ReadsOnly ∧ check.Foresees emit ∧ access.Readable () "banner.js" ∧
      ∃ printed source, resultOn () (runEmit access emit) = .ok printed ∧
        resultOn () (runEmit access emit.plain) = .ok source ∧
        resultOn () (runCheck access check) = .ok (summary 1 source) := by
  intro access check emit
  have haccess : access.ReadsOnly := fun _ _ => rfl
  have hsame : check.Foresees emit := ⟨rfl, rfl, rfl, rfl⟩
  have hbanner : access.Readable () "banner.js" := ⟨"// built", rfl⟩
  have hreadable : ∀ path ∈ emit.prepend ++ emit.append ++ emit.wrap.toList,
      access.Readable () path := by
    intro path hpath
    obtain rfl : path = "banner.js" := List.mem_singleton.1 hpath
    exact hbanner
  obtain ⟨hverdict, hsum⟩ := runCheck_foresees haccess hsame hreadable
  have hload : Settles () (loadProgram access check.programPath) (.ok (solo [])) :=
    loadProgram_bannered solo_writable
  obtain ⟨plain, t, hplain⟩ := exists_emitProgram_nesting false
  have hchecked := (runCheck_settles hload).resultOn_eq
  rw [bind_ok] at hchecked
  change resultOn () (runCheck access check) =
    (((emitProgram ((nesting false).around [])).runFrom .initial).1.mapError .emission >>= _) at hchecked
  rw [hplain] at hchecked
  obtain ⟨program, source, hprogram, hsource, htext⟩ := hsum _ hchecked
  obtain rfl : program = solo [] := by
    rw [hload.resultOn_eq] at hprogram
    exact (Except.ok.inj hprogram).symm
  rw [hchecked] at hverdict
  refine ⟨haccess, hsame, hbanner, ?_⟩
  cases hprinted : resultOn () (runEmit access emit) with
  | error e =>
      rw [hprinted] at hverdict
      cases hverdict
  | ok printed => exact ⟨printed, source, rfl, hsource, hchecked.trans (congrArg _ htext)⟩

end Banner

end ClassScript.CommandLine
