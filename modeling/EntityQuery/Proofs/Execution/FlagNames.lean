import EntityQuery.Execution.Projection
import EntityQuery.Proofs.Expression.QuotedLiterals
import EntityQuery.Proofs.Result
import EntityQuery.Proofs.Tables

/-!
# Names of combined values

The name of a value of a flags enum type lists the members that lie within the value.  Nothing
checks that they make up the value: a bit that none of them has is passed over.  So an enum literal
with the name has the value exactly if each bit of the value is in a member within it
(`EnumType.Covered`), and a projection writes the name in either case.
-/

namespace EntityQuery

/-! ## Bits -/

/-- The bit at a place is set in a value. -/
def HasBit (value : Int64) (i : Nat) : Prop := value.toBitVec.getLsbD i = true

/-- All bits of one value are set in another one. -/
def Within (part value : Int64) : Prop := ∀ i, HasBit part i → HasBit value i

variable {a b part value : Int64} {i : Nat}

theorem hasBit_or : HasBit (a ||| b) i ↔ HasBit a i ∨ HasBit b i := by
  simp [HasBit, Int64.toBitVec_or, BitVec.getLsbD_or]

theorem not_hasBit_zero : ¬HasBit 0 i := by
  simp [HasBit]

/-- Values with the same bits are the same. -/
theorem eq_of_within (hab : Within a b) (hba : Within b a) : a = b :=
  Int64.toBitVec_inj.1 (BitVec.eq_of_getLsbD_eq fun i _ => Bool.eq_iff_iff.2 ⟨hab i, hba i⟩)

theorem exists_hasBit (h : value ≠ 0) : ∃ i, HasBit value i := by
  by_contra hnone
  exact h (eq_of_within (fun i hi => absurd ⟨i, hi⟩ hnone) fun i hi => absurd hi not_hasBit_zero)

namespace EnumType

variable {type : EnumType} {members : List EnumMember} {member : EnumMember} {text : String}

theorem covers_iff : covers value part = true ↔ Within part value := by
  have hbits : value &&& part = part ↔ ∀ i, HasBit (value &&& part) i ↔ HasBit part i :=
    ⟨fun heq i => by rw [heq], fun h => eq_of_within (fun i => (h i).1) fun i => (h i).2⟩
  rw [covers, beq_iff_eq, hbits]
  simp [HasBit, Within, Int64.toBitVec_and, BitVec.getLsbD_and]

/-! ## Members of a value -/

/-- The values of members, combined. -/
def union (members : List EnumMember) : Int64 :=
  members.foldr (fun member rest => member.value ||| rest) 0

/-- Every bit of a value is in a member that lies within the value. -/
def Covered (type : EnumType) (value : Int64) : Prop :=
  ∀ i, HasBit value i → ∃ member ∈ type.members, Within member.value value ∧ HasBit member.value i

/-- The members that are named for a value. -/
def named (type : EnumType) (value : Int64) : List EnumMember :=
  match type.members.find? fun member => member.value == value with
  | some member => [member]
  | none => if type.isFlags then type.parts value else []

/-- The name of a value lists its members, if there are any. -/
theorem formatValue_eq (type : EnumType) (value : Int64) :
    type.formatValue value = if type.named value = [] then none
      else some (String.intercalate "," ((type.named value).map EnumMember.name)) := by
  unfold formatValue named
  cases type.members.find? fun member => member.value == value with
  | some member => simp
  | none => cases type.isFlags <;> cases type.parts value <;> simp

theorem hasBit_union : HasBit (union members) i ↔ ∃ member ∈ members, HasBit member.value i := by
  induction members with
  | nil => simp [union, not_hasBit_zero]
  | cons member members ih =>
      rw [union, List.foldr_cons, hasBit_or, List.exists_mem_cons_iff]
      exact or_congr_right ih

theorem named_sublist (type : EnumType) (value : Int64) :
    (type.named value).Sublist type.members := by
  unfold named
  cases hfind : type.members.find? fun member => member.value == value with
  | some member => exact List.singleton_sublist.2 (List.mem_of_find?_eq_some hfind)
  | none =>
      cases type.isFlags with
      | true => exact List.filter_sublist
      | false => exact List.nil_sublist _

theorem within_of_mem_named (h : member ∈ type.named value) : Within member.value value := by
  unfold named at h
  cases hfind : type.members.find? fun member => member.value == value with
  | some found =>
      rw [hfind] at h
      obtain rfl := List.mem_singleton.1 h
      obtain rfl : member.value = value := by simpa using List.find?_some hfind
      exact fun i hi => hi
  | none =>
      rw [hfind] at h
      cases hflags : type.isFlags with
      | true =>
          simp only [hflags, if_true, parts, List.mem_filter, Bool.and_eq_true] at h
          exact covers_iff.1 h.2.2
      | false => simp [hflags] at h

/-- The members that are named lie within the value, and make it up if it is covered. -/
theorem union_named_iff (h : type.named value ≠ []) :
    union (type.named value) = value ↔ type.Covered value := by
  have hunion : Within (union (type.named value)) value := fun i hi => by
    obtain ⟨member, hmember, hbit⟩ := hasBit_union.1 hi
    exact within_of_mem_named hmember i hbit
  constructor
  · intro heq i hi
    obtain ⟨member, hmember, hbit⟩ := hasBit_union.1 (heq.symm ▸ hi)
    exact ⟨member, (named_sublist type value).subset hmember, within_of_mem_named hmember, hbit⟩
  · refine fun hcovered => eq_of_within hunion fun i hi => ?_
    obtain ⟨member, hmember, hwithin, hbit⟩ := hcovered i hi
    rw [hasBit_union]
    unfold named at h ⊢
    cases hfind : type.members.find? fun member => member.value == value with
    | some found =>
        obtain rfl : found.value = value := by simpa using List.find?_some hfind
        exact ⟨found, List.mem_singleton_self _, hi⟩
    | none =>
        rw [hfind] at h
        cases hflags : type.isFlags with
        | false => simp [hflags] at h
        | true =>
            refine ⟨member, ?_, hbit⟩
            simp only [if_true, parts, List.mem_filter, Bool.and_eq_true, bne_iff_ne]
            refine ⟨hmember, fun hzero => ?_, covers_iff.2 hwithin⟩
            exact not_hasBit_zero (hzero ▸ hbit)

/-- A value other than zero that is covered has a name. -/
theorem named_ne_nil (hflags : type.isFlags = true) (hcovered : type.Covered value)
    (hvalue : value ≠ 0) : type.named value ≠ [] := by
  unfold named
  cases type.members.find? fun member => member.value == value with
  | some found => simp
  | none =>
      obtain ⟨i, hi⟩ := exists_hasBit hvalue
      obtain ⟨member, hmember, hwithin, hbit⟩ := hcovered i hi
      rw [if_pos hflags]
      refine List.ne_nil_of_mem (List.mem_filter.2 ⟨hmember, ?_⟩)
      rw [Bool.and_eq_true, bne_iff_ne]
      exact ⟨fun hzero => not_hasBit_zero (hzero ▸ hbit), covers_iff.2 hwithin⟩

/-! ## Reading names -/

theorem member?_name (hnodup : (type.members.map EnumMember.name).Nodup)
    (h : member ∈ type.members) : type.member? member.name = some member :=
  (find?_eq_some_iff_mem hnodup).2 ⟨h, rfl⟩

theorem combine_names (hnodup : (type.members.map EnumMember.name).Nodup)
    (h : members ⊆ type.members) (typeName : String) :
    Literal.combine type typeName (members.map EnumMember.name) = .ok (union members) := by
  induction members with
  | nil => rfl
  | cons member members ih =>
      obtain ⟨hmember, hmembers⟩ := List.cons_subset.1 h
      rw [List.map_cons, Literal.combine, Literal.memberValue, member?_name hnodup hmember,
        ih hmembers]
      rfl

/-- A name that a list of names can be taken apart at: it has no comma in it and no blanks around
it. -/
def IsPlainName (name : String) : Prop := ',' ∉ name.toList ∧ Text.trim name = name

theorem splitOn_names (hnil : members ≠ []) (hplain : ∀ member ∈ members, IsPlainName member.name) :
    ((String.intercalate "," (members.map EnumMember.name)).toList.splitOn ',').map
        (fun name => String.ofList (Text.trimChars name))
      = members.map EnumMember.name := by
  have hcomma : ",".toList = [','] := rfl
  rw [String.toList_intercalate, hcomma, List.map_map, List.splitOn_intercalate]
  · rw [List.map_map]
    exact List.map_congr_left fun member hmember => (hplain member hmember).2
  · intro name hname
    obtain ⟨member, hmember, rfl⟩ := List.mem_map.1 hname
    exact (hplain member hmember).1
  · simpa using hnil

/-- An enum literal has the value of the members that it names. -/
theorem ofToken_names {model : Model} {typeName : String}
    (htype : model.enumTypeNamed? typeName = some type) (hquote : Literal.quote ∉ typeName.toList)
    (hnodup : (type.members.map EnumMember.name).Nodup) (hsub : members ⊆ type.members)
    (hnil : members ≠ []) (hplain : ∀ member ∈ members, IsPlainName member.name)
    (htext : text = String.intercalate "," (members.map EnumMember.name)) :
    Literal.ofToken model .enumeration (quotedLiteral typeName text)
      = .ok ⟨some (.enumeration type.key), quotedLiteral typeName text,
          .enumeration ⟨type.key, union members⟩⟩ := by
  have hname : (quotedLiteral typeName text).toList.takeWhile (· != Literal.quote)
      = typeName.toList := by
    rw [toList_quotedLiteral, List.takeWhile_append_of_pos]
    · simp [Literal.quote, Filter.Scan.quote]
    · exact fun c hc => bne_iff_ne.2 fun heq => hquote (heq ▸ hc)
  have hrest : (quotedLiteral typeName text).toList.drop (typeName.toList.length + 1)
      = text.toList ++ [Literal.quote] := by
    rw [toList_quotedLiteral, ← List.drop_drop, List.drop_left]
    rfl
  have hlength : typeName.toList.length ≠ (quotedLiteral typeName text).toList.length := by
    rw [toList_quotedLiteral, List.length_append, List.length_cons]
    omega
  unfold Literal.ofToken Literal.readEnum
  dsimp only
  rw [hname, hrest, String.ofList_toList, htype]
  refine guard_eq_ok.2 ⟨by simpa using hlength, ?_⟩
  simp only [List.getLast?_append, List.getLast?_singleton, Option.some_or, beq_self_eq_true,
    if_true, List.dropLast_concat, htext, splitOn_names hnil hplain]
  exact bind_eq_ok.2 ⟨type, rfl, bind_eq_ok.2 ⟨_, combine_names hnodup hsub typeName, rfl⟩⟩

theorem enumType?_key {model : Model} {typeName : String}
    (h : model.enumTypeNamed? typeName = some type) : model.enumType? type.key = some type := by
  obtain ⟨key, -, hkey⟩ := Option.bind_eq_some_iff.1 h
  rwa [show type.key = key from by simpa using List.find?_some hkey]

/-- The name of a value lists members that lie within the value.  An enum literal with the name has
the value that they make up, which is the value itself exactly if it is covered, and a projection
writes the name in any case.  Of a flags enum type, only zero and values that are not covered may
have no name; these are written as numbers. -/
theorem formatValue_reads_back {model : Model} {typeName : String}
    (htype : model.enumTypeNamed? typeName = some type) (hquote : Literal.quote ∉ typeName.toList)
    (hnodup : (type.members.map EnumMember.name).Nodup) (value : Int64) :
    (∀ text, type.formatValue value = some text → ∃ named : List EnumMember,
      named.Sublist type.members ∧ (∀ member ∈ named, Within member.value value) ∧
        text = String.intercalate "," (named.map EnumMember.name) ∧
        (union named = value ↔ type.Covered value) ∧
        ((∀ member ∈ named, IsPlainName member.name) →
          Literal.ofToken model .enumeration (quotedLiteral typeName text)
            = .ok ⟨some (.enumeration type.key), quotedLiteral typeName text,
                .enumeration ⟨type.key, union named⟩⟩) ∧
        Projection.enumName model type.key value = .string text) ∧
    (type.formatValue value = none →
      Projection.enumName model type.key value = .int64 value ∧
        (type.isFlags = true → value ≠ 0 → ¬type.Covered value)) := by
  have hkey := enumType?_key htype
  have hformat := formatValue_eq type value
  constructor
  · intro text htext
    have hwritten : Projection.enumName model type.key value = .string text := by
      rw [Projection.enumName, hkey, Option.bind_some, htext]
    rw [htext] at hformat
    split at hformat
    · cases hformat
    · rename_i hnil
      have hnames := Option.some.inj hformat
      exact ⟨type.named value, named_sublist type value, fun _ => within_of_mem_named, hnames,
        union_named_iff hnil, fun hplain => ofToken_names htype hquote hnodup
          (named_sublist type value).subset hnil hplain hnames, hwritten⟩
  · intro hnone
    have hwritten : Projection.enumName model type.key value = .int64 value := by
      rw [Projection.enumName, hkey, Option.bind_some, hnone]
    refine ⟨hwritten, fun hflags hvalue hcovered => ?_⟩
    rw [hnone, if_neg (named_ne_nil hflags hcovered hvalue)] at hformat
    cases hformat

/-- The rights to read and to write. -/
def rights : EnumType := ⟨⟨"Rights"⟩, "Sample", "Rights", true, [⟨"Read", 1⟩, ⟨"Write", 2⟩]⟩

def rightsModel : Model := ⟨[], [], [rights], [("Sample.Rights", rights.key)]⟩

/-- Both rights together. -/
theorem formatValue_reads_back_both :
    rights.formatValue 3 = some "Read,Write" ∧
      Literal.ofToken rightsModel .enumeration (quotedLiteral "Sample.Rights" "Read,Write")
        = .ok ⟨some (.enumeration rights.key), quotedLiteral "Sample.Rights" "Read,Write",
            .enumeration ⟨rights.key, 3⟩⟩ ∧
      Projection.enumName rightsModel rights.key 3 = .string "Read,Write" := by
  have htext : rights.formatValue 3 = some "Read,Write" := by decide
  have htype : rightsModel.enumTypeNamed? "Sample.Rights" = some rights := rfl
  obtain ⟨named, hsub, -, -, hunion, hliteral, hwritten⟩ :=
    (formatValue_reads_back htype (by decide) (by decide) 3).1 _ htext
  have hcovered : rights.Covered 3 := by
    intro i hi
    have hbits : (3 : Int64) = 1 ||| 2 := by decide
    rcases hasBit_or.1 (hbits ▸ hi) with hread | hwrite
    · exact ⟨⟨"Read", 1⟩, by decide, covers_iff.1 (by decide), hread⟩
    · exact ⟨⟨"Write", 2⟩, by decide, covers_iff.1 (by decide), hwrite⟩
  have hplain : ∀ member ∈ rights.members, IsPlainName member.name := by
    unfold IsPlainName
    decide
  rw [hunion.2 hcovered] at hliteral
  exact ⟨htext, hliteral fun member hmember => hplain member (hsub.subset hmember), hwritten⟩

/-- A value with a bit that no member has, and which no members make up, is written by the name of
another value, as which it is read back. -/
theorem formatValue_unknown_bit :
    rights.isFlags = true ∧ (rights.members.map EnumMember.name).Nodup ∧
      (∀ named : List EnumMember, named.Sublist rights.members → union named ≠ 9) ∧
      rights.formatValue 9 = some "Read" ∧
      Literal.ofToken rightsModel .enumeration (quotedLiteral "Sample.Rights" "Read")
        = .ok ⟨some (.enumeration rights.key), quotedLiteral "Sample.Rights" "Read",
            .enumeration ⟨rights.key, 1⟩⟩ ∧
      Projection.enumName rightsModel rights.key 9 = .string "Read" := by
  have hall : ∀ named ∈ rights.members.sublists, union named ≠ 9 := by decide
  exact ⟨rfl, by decide, fun named hsub => hall named (List.mem_sublists.2 hsub), by decide, rfl,
    rfl⟩

end EnumType

end EntityQuery
