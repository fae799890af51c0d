import ClassScript.Json.Record
import ClassScript.Model.Encode
import ClassScript.Proofs.JsonScalars

/-!
Lists, records and tagged alternatives read back from their JSON text. There is
one rule for each kind of reader; what stands inside a bracket is read with the
smaller budget, which the depth of the value says is enough.
-/

namespace ClassScript.Json

open Decoder (Nested Fields Row Slots Variants opened)

/-- The reader takes the text of a value that opens no more brackets at once than
the budget allows. -/
def Decodes {α : Type} (budget : Nat) (read : Decoder α) (j : Json) (a : α) : Prop :=
  j.depth ≤ budget → Reads read j.render a

theorem depth_le_depthOfAll {items : List Json} {j : Json} (h : j ∈ items) :
    j.depth ≤ depthOfAll items := by
  induction items with
  | nil => cases h
  | cons item rest ih =>
      rw [depthOfAll]
      cases h with
      | head => exact Nat.le_max_left _ _
      | tail _ h => exact Nat.le_trans (ih h) (Nat.le_max_right _ _)

section Scalars

variable {α β : Type} {budget : Nat}

theorem decodes_string (s : String) : Decodes budget Decoder.string (.string s) s :=
  fun _ => reads_string s

theorem decodes_bool (b : Bool) : Decodes budget Decoder.bool (.bool b) b :=
  fun _ => reads_bool b

theorem decodes_int32 (v : Int32) : Decodes budget decodeInt32 (.integer v.toInt) v :=
  fun _ => reads_int32 v

theorem decodes_int64 (v : Int64) : Decodes budget decodeInt64 (.integer v.toInt) v :=
  fun _ => reads_int64 v

theorem decodes_uint16 (v : UInt16) : Decodes budget decodeUInt16 (.integer v.toNat) v :=
  fun _ => reads_uint16 v

theorem decodes_uint32 (v : UInt32) : Decodes budget decodeUInt32 (.integer v.toNat) v :=
  fun _ => reads_uint32 v

theorem Decodes.map {read : Decoder α} {j : Json} {a : α} (h : Decodes budget read j a) (f : α → β) :
    Decodes budget (f <$> read) j (f a) :=
  fun hdepth => (h hdepth).map f

/-- The value is a string or an object, so that its text does not start as `null` does. -/
def isNamed : Json → Bool
  | .string _ => true
  | .object _ => true
  | _ => false

theorem head?_render_of_isNamed {j : Json} (h : j.isNamed = true) : j.render.head? ≠ some 'n' := by
  match j with
  | .string s => simp [render, quoted]
  | .object [] => simp [render]
  | .object ((name, value) :: rest) => simp [render]

/-- A value that may be missing is read. -/
theorem Decodes.option {read : Decoder α} {encode : α → Json} {value : Option α}
    (hnamed : ∀ a, (encode a).isNamed = true)
    (h : ∀ a ∈ value, Decodes budget read (encode a) a) :
    Decodes budget (Decoder.option read) (.ofOption encode value) value := by
  intro hdepth
  cases value with
  | none => exact reads_none read
  | some a => exact (h a rfl hdepth).some (head?_render_of_isNamed (hnamed a))

end Scalars

section Lists

variable {α : Type} {budget : Nat}

/-- The bracket that is entered takes one from the budget. -/
theorem run_opened (inner : Nat) (body : Nested (inner + 1) α) (c : Char) (text : List Char) :
    opened (inner + 1) body (c :: text) = body inner (Nat.lt_succ_self inner) text :=
  rfl

/-- A list that goes on with an item has one more. -/
theorem run_nextItem_first {text : List Char} (h : Opens text) (rest : List Char) :
    Decoder.nextItem true (text ++ rest) = .ok (true, text ++ rest) := by
  obtain ⟨c, more, rfl, hblank, hclosing⟩ := h
  refine (run_bind (run_peek hblank (more ++ rest))).trans (run_of_eq (y := pure true) ?_ rfl)
  split
  · next heq => cases heq
  · next heq =>
      obtain rfl : c = ']' := Option.some.inj heq
      cases hclosing
  · rfl

theorem run_nextItem_comma {text : List Char} (h : Opens text) (rest : List Char) :
    Decoder.nextItem false (',' :: (text ++ rest)) = .ok (true, text ++ rest) := by
  obtain ⟨c, more, rfl, hblank, hclosing⟩ := h
  refine (run_bind (run_peek rfl _)).trans ((run_bind (run_advance ',' _)).trans ?_)
  refine (run_bind (run_peek hblank (more ++ rest))).trans (run_of_eq (y := pure true) ?_ rfl)
  split
  · next heq => cases heq
  · next heq =>
      obtain rfl : c = ']' := Option.some.inj heq
      cases hclosing
  · rfl

theorem run_nextItem_end (isFirst : Bool) (rest : List Char) :
    Decoder.nextItem isFirst (']' :: rest) = .ok (false, ']' :: rest) :=
  (run_bind (run_peek rfl rest)).trans rfl

theorem run_endList (rest : List Char) : Decoder.endList (']' :: rest) = .ok ((), rest) :=
  (run_bind (run_peek rfl rest)).trans (run_advance ']' rest)

theorem ends_renderItems (items : List Json) (rest : List Char) : Ends (renderItems items ++ rest) := by
  cases items with
  | nil => exact ends_cons rfl _
  | cons item items => exact ends_cons rfl _

theorem length_lt_renderItems (items : List Json) : items.length < (renderItems items).length := by
  induction items with
  | nil => exact Nat.zero_lt_one
  | cons item rest ih =>
      simp only [renderItems, List.length_cons, List.length_append]
      omega

variable {read : Decoder α} {encode : α → Json}

/-- The items behind the first one are read up to the closing bracket. -/
theorem run_items {values : List α} (h : ∀ a ∈ values, Reads read (encode a).render a) {fuel : Nat}
    (hfuel : values.length < fuel) (rest : List Char) :
    Decoder.items read fuel false (renderItems (values.map encode) ++ rest) =
      .ok (values, ']' :: rest) := by
  induction values generalizing fuel with
  | nil =>
      obtain ⟨fuel, rfl⟩ := Nat.exists_eq_add_of_lt hfuel
      exact (run_bind (run_nextItem_end false rest)).trans rfl
  | cons a values ih =>
      rw [List.length_cons] at hfuel
      obtain ⟨fuel, rfl⟩ := Nat.exists_eq_add_of_lt hfuel
      obtain ⟨ha, hvalues⟩ := List.forall_mem_cons.mp h
      rw [List.map_cons, renderItems, List.cons_append, List.append_assoc]
      refine (run_bind (run_nextItem_comma ha.opens _)).trans ?_
      refine (run_bind (ha.run _ (ends_renderItems _ rest))).trans ?_
      exact (run_bind (ih hvalues (by omega))).trans rfl

/-- All items are read, from behind the opening bracket to before the closing one. -/
theorem run_allItems {values : List α} (h : ∀ a ∈ values, Reads read (encode a).render a)
    (rest : List Char) :
    ∃ text, (ofList encode values).render ++ rest = '[' :: text ∧
      Decoder.items read (text.length + 1) true text = .ok (values, ']' :: rest) := by
  cases values with
  | nil => exact ⟨']' :: rest, rfl, (run_bind (run_nextItem_end true rest)).trans rfl⟩
  | cons a values =>
      obtain ⟨ha, hvalues⟩ := List.forall_mem_cons.mp h
      refine ⟨(encode a).render ++ (renderItems (values.map encode) ++ rest), ?_, ?_⟩
      · rw [ofList, List.map_cons, render, List.cons_append, List.append_assoc]
      · have hfuel : values.length <
            ((encode a).render ++ (renderItems (values.map encode) ++ rest)).length := by
          have hlength := length_lt_renderItems (values.map encode)
          simp only [List.length_map, List.length_append] at hlength ⊢
          omega
        refine (run_bind (run_nextItem_first ha.opens _)).trans ?_
        refine (run_bind (ha.run _ (ends_renderItems _ rest))).trans ?_
        exact (run_bind (run_items hvalues hfuel rest)).trans rfl

/-- A list is read when its items are, each with the budget inside the bracket. -/
theorem Decodes.list {item : Nested budget α} {values : List α}
    (h : ∀ inner (hinner : inner < budget), ∀ a ∈ values,
      Decodes inner (item inner hinner) (encode a) a) :
    Decodes budget (Decoder.list budget item) (.ofList encode values) values := by
  intro hdepth
  rw [ofList, depth] at hdepth
  obtain ⟨inner, rfl⟩ : ∃ inner, budget = inner + 1 := ⟨budget - 1, by omega⟩
  have hreads : ∀ a ∈ values, Reads (item inner (Nat.lt_succ_self inner)) (encode a).render a :=
    fun a ha => h inner _ a ha <| Nat.le_trans (depth_le_depthOfAll (List.mem_map_of_mem ha)) (by omega)
  refine ⟨?_, fun rest _ => ?_⟩
  · cases values with
    | nil => exact ⟨'[', _, rfl, rfl, rfl⟩
    | cons a values => exact ⟨'[', _, rfl, rfl, rfl⟩
  · obtain ⟨text, htext, hitems⟩ := run_allItems hreads rest
    rw [htext]
    refine (run_bind (run_peek rfl _)).trans ((run_opened inner _ '[' _).trans ?_)
    refine (run_bind rfl).trans ((run_bind hitems).trans ?_)
    exact (run_bind (run_endList rest)).trans rfl

end Lists

section Records

variable {budget : Nat}

/-- The slots when the first fields have been read. -/
def slotsAfter {αs : List Type} : Fields budget αs → Row αs → Nat → Slots αs
  | .nil, (), _ => ()
  | .cons _ _ _ rest, _, 0 => (none, rest.emptySlots)
  | .cons _ _ _ rest, (value, row), n + 1 => (some value, slotsAfter rest row n)

/-- The fields take the members, in this order and under these names. -/
inductive Takes (inner : Nat) (h : inner < budget) :
    {αs : List Type} → Fields budget αs → List (String × Json) → Row αs → Prop where
  | nil : Takes inner h .nil [] ()
  | cons {α : Type} {αs : List Type} {name : String} {read : Nested budget α} {default : Option α}
      {rest : Fields budget αs} {j : Json} {members : List (String × Json)} {value : α} {row : Row αs}
      (head : Decodes inner (read inner h) j value) (tail : Takes inner h rest members row) :
      Takes inner h (.cons name read default rest) ((name, j) :: members) (value, row)

variable {αs : List Type} {inner : Nat} {h : inner < budget} {fields : Fields budget αs}
  {members : List (String × Json)} {row : Row αs}

theorem run_colon (text : List Char) : Decoder.colon (':' :: text) = .ok ((), text) :=
  (run_bind (run_peek rfl text)).trans (run_advance ':' text)

theorem run_nextMember_first (name : String) (rest : List Char) :
    Decoder.nextMember true (quoted name ++ rest) = .ok (true, quoted name ++ rest) :=
  (run_bind (run_peek_quoted name rest)).trans rfl

theorem run_nextMember_comma (name : String) (rest : List Char) :
    Decoder.nextMember false (',' :: (quoted name ++ rest)) = .ok (true, quoted name ++ rest) :=
  (run_bind (run_peek rfl _)).trans <| (run_bind (run_advance ',' _)).trans <|
    (run_bind (run_peek_quoted name rest)).trans rfl

theorem run_nextMember_end (isFirst : Bool) (rest : List Char) :
    Decoder.nextMember isFirst ('}' :: rest) = .ok (false, '}' :: rest) :=
  (run_bind (run_peek rfl rest)).trans rfl

theorem slotsAfter_zero (fields : Fields budget αs) (row : Row αs) :
    slotsAfter fields row 0 = fields.emptySlots := by
  cases fields with
  | nil => rfl
  | cons name read default rest => rfl

/-- A member of the first field's name fills the first slot. -/
theorem fill_same {α : Type} {name : String} {read : Nested budget α} {default : Option α}
    {slots : Slots αs} :
    Fields.fill inner h name (.cons name read default fields) (none, slots) = do
      Decoder.colon
      let value ← read inner h
      return some (some value, slots) := by
  simp [Fields.fill]

/-- A member of another name fills a slot behind the first. -/
theorem fill_other {α : Type} {name key : String} {read : Nested budget α} {default slot : Option α}
    {slots : Slots αs} (hkey : key ≠ name) :
    Fields.fill inner h key (.cons name read default fields) (slot, slots) = do
      let filled ← fields.fill inner h key slots
      return filled.map fun slots => (slot, slots) := by
  simp [Fields.fill, hkey]

/-- A member's value goes to the slot of its field. -/
theorem Takes.run_fill (htakes : Takes inner h fields members row)
    (hnames : (members.map (·.1)).Nodup) (hdepth : depthOfMembers members ≤ inner) {n : Nat}
    {name : String} {j : Json} (hmember : members[n]? = some (name, j)) {rest : List Char}
    (hrest : Ends rest) :
    fields.fill inner h name (slotsAfter fields row n) (':' :: (j.render ++ rest)) =
      .ok (some (slotsAfter fields row (n + 1)), rest) := by
  induction htakes generalizing n with
  | nil => cases hmember
  | @cons α αs first read default others value members a row head tail ih =>
      rw [depthOfMembers] at hdepth
      rw [List.map_cons, List.nodup_cons] at hnames
      cases n with
      | zero =>
          obtain ⟨rfl, rfl⟩ : first = name ∧ value = j := by simpa using hmember
          refine run_of_eq fill_same ?_
          refine (run_bind (run_colon _)).trans ?_
          refine (run_bind ((head (by omega)).run rest hrest)).trans ?_
          rw [slotsAfter, slotsAfter_zero]
          rfl
      | succ n =>
          rw [List.getElem?_cons_succ] at hmember
          have hkey : name ≠ first := by
            rintro rfl
            exact hnames.1 (List.mem_map.mpr ⟨_, List.mem_of_getElem? hmember, rfl⟩)
          refine run_of_eq (fill_other hkey) ?_
          exact (run_bind (ih hnames.2 (by omega) hmember)).trans rfl

/-- When every field has its value the record is complete. -/
theorem Takes.complete (htakes : Takes inner h fields members row) :
    fields.complete (slotsAfter fields row members.length) = .ok row := by
  induction htakes with
  | nil => rfl
  | cons head tail ih =>
      rw [List.length_cons, slotsAfter, Fields.complete]
      change Except.bind _ _ = _
      rw [ih]
      rfl

theorem ends_renderMembers (members : List (String × Json)) (rest : List Char) :
    Ends (renderMembers members ++ rest) := by
  cases members with
  | nil => exact ends_cons rfl _
  | cons member members => exact ends_cons rfl _

theorem length_lt_renderMembers (members : List (String × Json)) :
    members.length < (renderMembers members).length := by
  induction members with
  | nil => exact Nat.zero_lt_one
  | cons member rest ih =>
      simp only [renderMembers, List.length_cons, List.length_append]
      omega

/-- A member whose key comes next is read into its slot, and the others follow. -/
theorem Takes.run_member (htakes : Takes inner h fields members row)
    (hnames : (members.map (·.1)).Nodup) (hdepth : depthOfMembers members ≤ inner) {n fuel : Nat}
    {isFirst : Bool} {name : String} {j : Json} (hmember : members[n]? = some (name, j))
    {text more : List Char} (hmore : Ends more)
    (hnext : Decoder.nextMember isFirst text =
      .ok (true, quoted name ++ ':' :: (j.render ++ more))) :
    fields.members inner h (fuel + 1) isFirst (slotsAfter fields row n) text =
      fields.members inner h fuel false (slotsAfter fields row (n + 1)) more := by
  rw [Fields.members]
  refine (run_bind hnext).trans ((run_bind (run_quotedString name _)).trans ?_)
  exact (run_bind (htakes.run_fill hnames hdepth hmember hmore)).trans rfl

/-- The members behind the first ones are read up to the closing brace. -/
theorem Takes.run_members (htakes : Takes inner h fields members row)
    (hnames : (members.map (·.1)).Nodup) (hdepth : depthOfMembers members ≤ inner) {n : Nat}
    (hn : n ≤ members.length) {fuel : Nat} (hfuel : members.length < n + fuel) (rest : List Char) :
    fields.members inner h fuel false (slotsAfter fields row n)
        (renderMembers (members.drop n) ++ rest) =
      .ok (slotsAfter fields row members.length, '}' :: rest) := by
  -- the slots tell how many members have been read, and each takes one of the fuel
  induction fuel generalizing n with
  | zero => omega
  | succ fuel ih =>
      cases hmember : members[n]? with
      | none =>
          obtain rfl : n = members.length := by
            have hlength := List.getElem?_eq_none_iff.mp hmember
            omega
          rw [List.drop_length, Fields.members]
          exact (run_bind (run_nextMember_end false rest)).trans rfl
      | some member =>
          obtain ⟨name, j⟩ := member
          obtain ⟨hlt, hget⟩ := List.getElem?_eq_some_iff.mp hmember
          rw [List.drop_eq_getElem_cons hlt, hget, renderMembers, List.cons_append, List.append_assoc,
            List.cons_append, List.append_assoc,
            htakes.run_member hnames hdepth hmember (ends_renderMembers _ rest)
              (run_nextMember_comma name _)]
          exact ih hlt (by omega)

/-- All members are read, from behind the opening brace to before the closing one. -/
theorem Takes.run_allMembers (htakes : Takes inner h fields members row)
    (hnames : (members.map (·.1)).Nodup) (hdepth : depthOfMembers members ≤ inner) (rest : List Char) :
    ∃ text, (Json.object members).render ++ rest = '{' :: text ∧
      fields.members inner h (text.length + 1) true fields.emptySlots text =
        .ok (slotsAfter fields row members.length, '}' :: rest) := by
  rw [← slotsAfter_zero fields row]
  cases members with
  | nil =>
      refine ⟨'}' :: rest, rfl, ?_⟩
      rw [Fields.members]
      exact (run_bind (run_nextMember_end true rest)).trans rfl
  | cons member others =>
      obtain ⟨name, j⟩ := member
      refine ⟨quoted name ++ ':' :: (j.render ++ (renderMembers others ++ rest)), ?_, ?_⟩
      · rw [render, List.cons_append, List.append_assoc, List.cons_append, List.append_assoc]
      · rw [htakes.run_member hnames hdepth rfl (ends_renderMembers others rest)
          (run_nextMember_first name _)]
        have hlength := length_lt_renderMembers others
        refine htakes.run_members hnames hdepth (Nat.succ_le_succ (Nat.zero_le _)) ?_ rest
        simp only [List.length_append, List.length_cons]
        omega

/-- A record is read when its fields take the members of the object. -/
theorem Decodes.record {α : Type} {label : String} {build : Row αs → α} {a : α}
    (hnames : (members.map (·.1)).Nodup)
    (htakes : ∀ inner (hinner : inner < budget), Takes inner hinner fields members row)
    (hbuild : build row = a) :
    Decodes budget (Decoder.record budget label fields build) (.object members) a := by
  intro hdepth
  rw [depth] at hdepth
  obtain ⟨inner, rfl⟩ : ∃ inner, budget = inner + 1 := ⟨budget - 1, by omega⟩
  have hall := htakes inner (Nat.lt_succ_self inner)
  refine ⟨?_, fun rest _ => ?_⟩
  · cases members with
    | nil => exact ⟨'{', _, rfl, rfl, rfl⟩
    | cons member others => exact ⟨'{', _, rfl, rfl, rfl⟩
  · obtain ⟨text, htext, hmembers⟩ := hall.run_allMembers hnames (by omega) rest
    have hdiscard : (discard peek : Decoder Unit) ('}' :: rest) = .ok ((), '}' :: rest) := rfl
    rw [htext]
    refine (run_bind (run_peek rfl _)).trans ((run_opened inner _ '{' _).trans ?_)
    refine (run_bind rfl).trans ((run_bind hmembers).trans ?_)
    refine (run_bind (run_lift hall.complete _)).trans ((run_bind hdiscard).trans ?_)
    rw [hbuild]
    exact (run_bind (run_advance '}' rest)).trans rfl

end Records

section Alternatives

open Decoder (tagged)

variable {α : Type} {budget : Nat} {variants : Variants budget α} {name : String}

theorem named_of_lookup {payload : Decoder.Payload budget α}
    (h : variants.lookup name = some payload) : variants.named name = .ok payload := by
  rw [Variants.named, h]

/-- An alternative that carries nothing is read from its name. -/
theorem Decodes.unit {a : α} (h : variants.lookup name = some (.unit a)) :
    Decodes budget (tagged budget variants) (.string name) a := by
  intro _
  refine ⟨opens_quoted name, fun rest _ => (run_bind (run_peek_quoted name rest)).trans ?_⟩
  refine (run_bind (run_quotedString name rest)).trans ?_
  exact (run_bind (run_lift (named_of_lookup h) rest)).trans rfl

/-- What an alternative carries is read behind its name. -/
theorem decodes_tag {payload : Decoder.Payload budget α} {read : Nested budget α} {j : Json} {a : α}
    (h : variants.lookup name = some payload) (hpayload : payload = .single read ∨ payload = .fields read)
    (hread : ∀ inner (hinner : inner < budget), Decodes inner (read inner hinner) j a) :
    Decodes budget (tagged budget variants) (.tag name j) a := by
  intro hdepth
  rw [tag, depth, depthOfMembers] at hdepth
  obtain ⟨inner, rfl⟩ : ∃ inner, budget = inner + 1 := ⟨budget - 1, by omega⟩
  have hj : j.depth ≤ inner := by omega
  refine ⟨⟨'{', _, rfl, rfl, rfl⟩, fun rest _ => ?_⟩
  have hvalue := (hread inner (Nat.lt_succ_self inner) hj).run ('}' :: rest) (ends_cons rfl rest)
  rw [tag, render, renderMembers, List.cons_append, List.append_assoc, List.cons_append,
    List.append_assoc, List.singleton_append]
  refine (run_bind (run_peek rfl _)).trans ((run_opened inner _ '{' _).trans ?_)
  refine (run_bind ((run_bind (run_peek_quoted name _)).trans (run_quotedString name _))).trans ?_
  refine (run_bind (run_lift (named_of_lookup h) _)).trans ?_
  refine (run_bind (run_colon _)).trans ?_
  obtain rfl | rfl := hpayload
  · exact (run_bind hvalue).trans ((run_bind (run_peek rfl rest)).trans rfl)
  · exact (run_bind hvalue).trans ((run_bind (run_peek rfl rest)).trans rfl)

theorem Decodes.single {read : Nested budget α} {j : Json} {a : α}
    (h : variants.lookup name = some (.single read))
    (hread : ∀ inner (hinner : inner < budget), Decodes inner (read inner hinner) j a) :
    Decodes budget (tagged budget variants) (.tag name j) a :=
  decodes_tag h (.inl rfl) hread

theorem Decodes.fields {read : Nested budget α} {j : Json} {a : α}
    (h : variants.lookup name = some (.fields read))
    (hread : ∀ inner (hinner : inner < budget), Decodes inner (read inner hinner) j a) :
    Decodes budget (tagged budget variants) (.tag name j) a :=
  decodes_tag h (.inr rfl) hread

end Alternatives

end ClassScript.Json
