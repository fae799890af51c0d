import ClassScript.Proofs.BodyReading

/-!
Programs read back from their JSON text. A program without real literals whose
JSON form opens no more brackets at once than a reader admits is read as itself,
so its text determines it and is kept by reading and writing once more.
-/

namespace ClassScript

open Json (Decodes decodes_string decodes_bool decodes_uint32)

/-- No literal in the body of the method is a real number. -/
def Method.WithoutReals (m : Method) : Prop :=
  ∀ b ∈ m.body, b.WithoutReals

/-- No constant and no literal of the class is a real number. -/
def Class.WithoutReals (c : Class) : Prop :=
  (∀ f ∈ c.fields, f.WithoutReals) ∧ ∀ m ∈ c.methods, m.WithoutReals

instance : DecidablePred Method.WithoutReals :=
  fun m => inferInstanceAs (Decidable (∀ b ∈ m.body, b.WithoutReals))

instance : DecidablePred Class.WithoutReals :=
  fun c => inferInstanceAs
    (Decidable ((∀ f ∈ c.fields, f.WithoutReals) ∧ ∀ m ∈ c.methods, m.WithoutReals))

section Members

variable {budget : Nat}

theorem Method.decodes {m : Method} (h : m.WithoutReals) :
    Decodes budget (Method.decode budget) m.toJson m :=
  .record (by simp) (fun _ _ =>
    .cons (decodes_string m.name) <| .cons m.owner.decodes <| .cons m.type.decodes <|
    .cons (decodes_bool m.isStatic) <| .cons m.role.decodes <| .cons (decodes_label m.nativeName) <|
    .cons (.option (fun _ => rfl) fun b hb => Body.decodes (h b hb) _) <|
    .cons (.option (fun _ => rfl) fun r _ => r.decodes) <|
    .cons (.list fun _ _ n _ => n.decodes) <| .cons (decodes_bool m.fluent) .nil) rfl

theorem Class.decodes {c : Class} (h : c.WithoutReals) :
    Decodes budget (Class.decode budget) c.toJson c :=
  .record (by simp) (fun _ _ =>
    .cons c.name.decodes <| .cons (.option (fun _ => rfl) fun n _ => n.decodes) <|
    .cons (.list fun _ _ n _ => n.decodes) <| .cons (decodes_uint32 c.id) <|
    .cons c.kind.decodes <| .cons (.list fun _ _ f hf => Field.decodes (h.1 f hf)) <|
    .cons (.list fun _ _ m hm => Method.decodes (h.2 m hm)) <| .cons (decodes_label c.verbatim) <|
    .cons (decodes_bool c.isNative) .nil) rfl

end Members

namespace Program

/-- No constant and no literal of the program is a real number. -/
def WithoutReals (p : Program) : Prop :=
  ∀ c ∈ p.classes, c.WithoutReals

instance : DecidablePred WithoutReals :=
  fun p => inferInstanceAs (Decidable (∀ c ∈ p.classes, c.WithoutReals))

theorem decodes_parts {p : Program} (h : p.WithoutReals) (budget : Nat) :
    Decodes budget (decodeParts budget) p.toJson (p.classes, p.entry, p.customMains) :=
  .record (by simp) (fun _ _ =>
    .cons (.list fun _ _ c hc => Class.decodes (h c hc)) <| .cons p.entry.decodes <|
    .cons (.list fun _ _ m _ => m.decodes) .nil) rfl

/-- The parts of a program make it up again. -/
theorem assemble_parts (p : Program) : assemble p.classes p.entry p.customMains = .ok p := by
  have hnone : firstRepeated? [] (p.classes.map Class.name) = none :=
    firstRepeated?_eq_none.mpr ⟨p.distinct, nofun⟩
  unfold assemble
  split
  · next name heq =>
      rw [hnone] at heq
      cases heq
  · rw [dif_pos p.hasEntry]

/-- The program has a text that can be read: JSON has no form for some of the
real numbers, and a reader opens only so many brackets at once. -/
structure Writable (p : Program) : Prop where
  withoutReals : p.WithoutReals
  depth_le : p.toJson.depth ≤ Json.Decoder.maxDepth

/-- Reads a program and writes it again. -/
def recode (text : String) : Except LoadError String := do
  return (← load text).toJson.text

theorem Writable.load_text {p : Program} (h : p.Writable) : load p.toJson.text = .ok p := by
  have hparts := (decodes_parts h.withoutReals Json.Decoder.maxDepth h.depth_le).run [] Json.ends_nil
  rw [List.append_nil] at hparts
  rw [load, Json.text, String.toList_ofList, hparts]
  simp only [assemble_parts]
  rfl

/-- A program is read back from its text. So no other program has that text, and
reading and writing it again leaves it as it is. -/
theorem json_round_trip {p : Program} (h : p.Writable) :
    load p.toJson.text = .ok p ∧
      (∀ q : Program, q.Writable → q.toJson.text = p.toJson.text → q = p) ∧
      recode p.toJson.text = .ok p.toJson.text := by
  refine ⟨h.load_text, fun q hq htext => ?_, ?_⟩
  · have hload : load p.toJson.text = .ok q := htext ▸ hq.load_text
    exact Except.ok.inj (hload.symm.trans h.load_text)
  · rw [recode, h.load_text]
    rfl

/-- A class with a field, a method that branches on its argument, and texts that
have to be escaped. -/
def sample : Program where
  classes := [{
    name := ⟨"app.Main"⟩
    parent := some ⟨"app.Base"⟩
    interfaces := [⟨"app.Runnable"⟩]
    id := 7
    kind := .concrete
    fields := [{
      name := "greeting", owner := ⟨"app.Main"⟩, isStatic := true, type := .ref ⟨"app.Text"⟩
      constant := some (.string "say \"hi\"\n\x01é") }]
    methods := [{
      name := "pick", owner := ⟨"app.Main"⟩
      type := { args := [{ name := "n", type := .int }], ret := .long }
      isStatic := false, role := .ordinary, nativeName := none
      body := some {
        locals := [{ name := "x", type := .array .int }]
        stmt := .block [
          .position "Main.java" 12,
          .loop (some "outer") (.literal (.bool true)) (.block [
            .switch (.param "n")
              [.arm [-1, 2147483647] (.leave (some "outer")), .arm [] (.again none)]
              (.ret (some (.cast (.literal (.int (-2147483648))) .int .long)))]),
          .ret (some (.literal (.long (-9223372036854775808))))] }
      bodyRef := none
      natives := [{ target := "node", guard := "", text := "\\" }]
      fluent := false }]
    verbatim := none
    isNative := false }]
  entry := ⟨"app.Main"⟩
  customMains := [{ target := "node", text := "main()" }]
  distinct := by decide
  hasEntry := by decide

theorem sample_writable : sample.Writable where
  withoutReals := by decide +kernel
  depth_le := by decide +kernel

theorem json_round_trip_sample :
    sample.Writable ∧ load sample.toJson.text = .ok sample ∧
      recode sample.toJson.text = .ok sample.toJson.text :=
  have hround := json_round_trip sample_writable
  ⟨sample_writable, hround.1, hround.2.2⟩

end Program

end ClassScript
