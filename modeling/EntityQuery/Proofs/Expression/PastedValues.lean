import EntityQuery.Proofs.Expression.Literals
import EntityQuery.Proofs.Expression.QuotedLiterals
import EntityQuery.Proofs.Filter.Moments
import EntityQuery.Proofs.Number.DecimalText
import EntityQuery.Proofs.Sample
import EntityQuery.Proofs.Value.Comparison
import EntityQuery.Value.Json

/-!
# Values that come back as literals

A client takes a value from an answer and puts it into its next filter.  Numbers get the letter of
their kind and bytes get their word, and every other text is a literal as it stands.  The literal is
one token then, however much it looks like one of another kind, and it denotes a value of the same
kind.  This is the value it was taken from, unless that is a leap second within a minute: it is
written like the second after it.
-/

namespace EntityQuery

open EntityQuery.Filter Number Text

/-! ## Making literals of output -/

/-- What output writes for a number or a text, apart from quotation marks. -/
def Text.Json.content? : Json → Option String
  | .number text | .string text => some text
  | _ => none

/-- The literal of a kind that a text of output is made to, and the kind of its token. -/
def literalForm? (text : String) : PrimitiveKind → Option (TokenKind × String)
  | .int32 => some (.integer, text)
  | .int64 => some (.integer, text ++ "L")
  | .decimal => some (.decimal, text ++ "M")
  | .binary => some (.binary, quotedLiteral "binary" text)
  | .guid => some (.guid, text)
  | .date => some (.date, text)
  | .timeOfDay => some (.timeOfDay, text)
  | .dateTimeOffset => some (.dateTimeOffset, text)
  | _ => none

/-- Values that a literal can be made of.  Years have four digits in a literal, and offsets have no
seconds. -/
def Value.Pastable : Value → Prop
  | .int32 _ | .int64 _ | .decimal _ | .binary _ | .guid _ | .timeOfDay _ => True
  | .date d => 0 ≤ d.year ∧ d.year ≤ 9999
  | .dateTimeOffset i => i.offset % 60 = 0 ∧ 0 ≤ i.date.year ∧ i.date.year ≤ 9999
  | _ => False

/-- A value that is no leap second, or one at the end of its minute. -/
def Value.LeapLast : Value → Prop
  | .timeOfDay t => t.LeapLast
  | .dateTimeOffset i => i.LeapLast
  | _ => True

/-- A text is a single token, and the literal that the token denotes is of a kind and has a value of
that kind. -/
structure Denotes (model : Model) (token : TokenKind) (literal : String) (kind : PrimitiveKind)
    (found : Value) : Prop where
  tokens : tokenize literal = .ok [⟨token, literal, 0⟩]
  reads : Literal.ofToken model token literal = .ok (.ofKind kind literal found)
  isOfKind : found.primitiveKind? = some kind

variable {model : Model} {token : TokenKind} {literal : String} {kind : PrimitiveKind} {v : Value}

theorem Denotes.of_read (htoken : token.isLiteral = true)
    (hfirst : firstToken? literal.toList = some (token, literal.toList.length))
    (hread : Literal.ofToken model token literal = .ok (.ofKind kind literal v))
    (hkind : v.primitiveKind? = some kind) : Denotes model token literal kind v where
  tokens := tokenize_of_firstToken? htoken hfirst
  reads := hread
  isOfKind := hkind

/-! ## Integers -/

theorem toList_intText (n : Int) :
    (intText n).toList = signed (decide (n < 0)) (digits n.natAbs) := by
  unfold intText signed
  rw [digits_eq_toString]
  by_cases hn : n < 0
  · simp [hn, String.toList_append]
  · simp [hn]

theorem firstToken?_intText (n : Int) :
    firstToken? (intText n).toList = some (.integer, (intText n).toList.length) := by
  have hfirst := firstToken?_integer (decide (n < 0)) false (digits_ne_nil n.natAbs)
    fun _ => isDigit_of_mem_digits
  rwa [if_neg Bool.false_ne_true, List.append_nil, ← toList_intText] at hfirst

theorem firstToken?_intText_long (n : Int) :
    firstToken? (intText n ++ "L").toList = some (.integer, (intText n ++ "L").toList.length) := by
  have hfirst := firstToken?_integer (decide (n < 0)) true (digits_ne_nil n.natAbs)
    fun _ => isDigit_of_mem_digits
  have hlong : "L".toList = ['L'] := rfl
  rwa [if_pos rfl, ← toList_intText, ← hlong, ← String.toList_append] at hfirst

/-- The last character of an integer is a digit. -/
theorem exists_getLast?_intText (n : Int) :
    ∃ c, (intText n).toList.getLast? = some c ∧ c.isDigit = true := by
  obtain ⟨front, c, hdigits⟩ : ∃ front c, digits n.natAbs = front ++ [c] :=
    ⟨_, _, (List.dropLast_append_getLast (digits_ne_nil n.natAbs)).symm⟩
  have hdigit : c.isDigit = true :=
    isDigit_of_mem_digits (hdigits ▸ List.mem_append_right front List.mem_cons_self)
  refine ⟨c, ?_, hdigit⟩
  rw [toList_intText, hdigits, ← signed_append, List.getLast?_concat]

theorem denotes_int32 (n : Int32) :
    Denotes model .integer (intText n.toInt) .int32 (.int32 n) := by
  have hread : Literal.readSigned? 32 (intText n.toInt).toList = some n.toInt :=
    readIntIn?_intText ⟨n.le_toInt, Int.le_sub_one_of_lt n.toInt_lt⟩
  obtain ⟨c, hlast, hdigit⟩ := exists_getLast?_intText n.toInt
  refine .of_read rfl (firstToken?_intText n.toInt) ?_ rfl
  show Literal.readInteger (intText n.toInt) = _
  unfold Literal.readInteger
  dsimp only
  rw [hlast]
  split
  · rename_i heq
    exact absurd (Option.some.inj heq) (ne_of_isDigit hdigit rfl)
  · rename_i heq
    exact absurd (Option.some.inj heq) (ne_of_isDigit hdigit rfl)
  · rw [hread]
    simp

theorem denotes_int64 (n : Int64) :
    Denotes model .integer (intText n.toInt ++ "L") .int64 (.int64 n) := by
  have hread : Literal.readSigned? 64 (intText n.toInt).toList = some n.toInt :=
    readIntIn?_intText ⟨n.le_toInt, Int.le_sub_one_of_lt n.toInt_lt⟩
  have htext : (intText n.toInt ++ "L").toList = (intText n.toInt).toList ++ ['L'] :=
    String.toList_append
  refine .of_read rfl (firstToken?_intText_long n.toInt) ?_ rfl
  show Literal.readInteger (intText n.toInt ++ "L") = _
  unfold Literal.readInteger
  simp [htext, hread]

/-! ## Decimals -/

theorem toList_decimalText (d : Decimal) : ∃ whole fraction,
    (d.text ++ "M").toList = signed d.negative whole ++ (pointed fraction ++ ['M']) ∧ whole ≠ [] ∧
      (∀ c ∈ whole, c.isDigit = true) ∧ (∀ c ∈ fraction, c.isDigit = true) := by
  obtain ⟨whole, fraction, hdigits, hne, hwhole, hfraction, -⟩ := d.exists_unsignedDigits
  have htext : d.text.toList = signed d.negative whole ++ pointed fraction := by
    rw [Decimal.text, String.toList_ofList, hdigits, signed_append]
    rfl
  have hM : "M".toList = ['M'] := rfl
  exact ⟨whole, fraction, by rw [String.toList_append, htext, hM, List.append_assoc], hne, hwhole,
    hfraction⟩

theorem dropLetters_decimalText (d : Decimal) :
    Literal.dropLetters 'm' 'M' (d.text ++ "M").toList = d.text.toList := by
  have hM : "M".toList = ['M'] := rfl
  have hletters : ∀ c ∈ d.text.toList, c ≠ 'm' ∧ c ≠ 'M' := by
    intro c hc
    rcases d.mem_text hc with hdigit | rfl | rfl
    · exact ⟨ne_of_isDigit hdigit rfl, ne_of_isDigit hdigit rfl⟩
    · decide
    · decide
  rw [String.toList_append, hM, Literal.dropLetters_append hletters (.inr rfl)]

/-- A decimal comes back with all of its digits; only the sign of zero is lost. -/
theorem denotes_decimal (d : Decimal) :
    Denotes model .decimal (d.text ++ "M") .decimal (.decimal d.unsignZero) := by
  obtain ⟨whole, fraction, htext, hne, hwhole, hfraction⟩ := toList_decimalText d
  refine .of_read rfl ?_ ?_ rfl
  · rw [htext]
    exact firstToken?_decimal d.negative hne hwhole hfraction
  · simp only [Literal.ofToken, dropLetters_decimalText, d.ofChars?_text, Option.map_some,
      Literal.ofRead]

theorem beq_unsignZero (d : Decimal) : (Value.decimal d.unsignZero == .decimal d) = true :=
  Value.beq_of_compare? rfl rfl (by decide) (congrArg some d.compare_unsignZero)

/-! ## Bytes, identifiers and times -/

theorem denotes_binary (bytes : List UInt8) :
    Denotes model .binary (quotedLiteral "binary" (String.ofList (base64Encode bytes))) .binary
      (.binary bytes) := by
  have hchars : (String.ofList (base64Encode bytes)).toList = base64Encode bytes :=
    String.toList_ofList
  refine .of_read rfl (firstToken?_binary_quotedLiteral bytes) ?_ rfl
  simp only [Literal.ofToken, quotedBody?_quotedLiteral, hchars, Option.bind_some,
    base64Decode?_base64Encode, Option.map_some, Literal.ofRead]

theorem denotes_guid (g : Guid) : Denotes model .guid g.text .guid (.guid g) := by
  refine .of_read rfl (firstToken?_guid g) ?_ rfl
  simp only [Literal.ofToken, g.ofChars?_text, Option.map_some, Literal.ofRead]

theorem denotes_date (d : Date) (hyear : 0 ≤ d.year ∧ d.year ≤ 9999) :
    Denotes model .date d.text .date (.date d) := by
  refine .of_read rfl (firstToken?_date d hyear) ?_ rfl
  simp only [Literal.ofToken, Time.readDate?_text d hyear, Option.map_some, Literal.ofRead]

/-- A time comes back as the time it settles to. -/
theorem denotes_timeOfDay (t : TimeOfDay) :
    Denotes model .timeOfDay t.text .timeOfDay (.timeOfDay t.settled) := by
  refine .of_read rfl (firstToken?_time t) ?_ rfl
  simp only [Literal.ofToken, Time.readTime?_text t, Option.map_some, Literal.ofRead]

/-- An instant comes back as the instant it settles to. -/
theorem denotes_dateTimeOffset (i : Instant) (h : i.offset % 60 = 0)
    (hyear : 0 ≤ i.date.year ∧ i.date.year ≤ 9999) :
    Denotes model .dateTimeOffset i.text .dateTimeOffset (.dateTimeOffset i.settled) := by
  refine .of_read rfl (firstToken?_dateTime i h hyear) ?_ rfl
  simp only [Literal.ofToken, Time.readInstant?_text i h hyear, Option.map_some, Literal.ofRead]

/-! ## Leap seconds -/

/-- Times that are equal as values have the same seconds. -/
theorem seconds_eq_of_beq {t u : TimeOfDay} (h : (Value.timeOfDay t == .timeOfDay u) = true) :
    t.seconds = u.seconds := by
  have hcompare := Value.compare?_of_beq rfl (by decide) h
  exact compare_eq_iff_eq.1 (Ordering.then_eq_eq.1 (Option.some.inj hcompare)).1

theorem beq_settled_timeOfDay_iff (t : TimeOfDay) :
    (Value.timeOfDay t.settled == .timeOfDay t) = true ↔ t.LeapLast := by
  constructor
  · intro h hge
    by_contra hwithin
    have hseconds := (TimeOfDay.settled_of_within hge hwithin).1
    have heq := seconds_eq_of_beq h
    omega
  · intro ht
    rw [TimeOfDay.settled_of_leapLast ht]
    exact Value.beq_self rfl (by decide)

/-- Instants that are equal as values have the same seconds. -/
theorem seconds_eq_of_beq_dateTimeOffset {i j : Instant}
    (h : (Value.dateTimeOffset i == .dateTimeOffset j) = true) : i.seconds = j.seconds := by
  have hcompare := Value.compare?_of_beq rfl (by decide) h
  exact compare_eq_iff_eq.1 (Ordering.then_eq_eq.1 (Option.some.inj hcompare)).1

theorem beq_settled_dateTimeOffset_iff (i : Instant) :
    (Value.dateTimeOffset i.settled == .dateTimeOffset i) = true ↔ i.LeapLast := by
  constructor
  · intro h hge
    by_contra hwithin
    have heq := seconds_eq_of_beq_dateTimeOffset h
    rw [Instant.settled, dif_pos ⟨hge, hwithin⟩] at heq
    dsimp only at heq
    omega
  · intro hi
    rw [Instant.settled_of_leapLast hi]
    exact Value.beq_self rfl (by decide)

/-! ## Every value -/

/-- The literal that is made of what output writes for a value is a single token, and denotes a
value of the same kind.  That value is equal to the one it was made of unless this is a leap second
within a minute. -/
theorem pasted_value_reads_back (model : Model) (h : v.Pastable) :
    ∃ json text kind token literal found, v.toJson = .ok json ∧ json.content? = some text ∧
      v.primitiveKind? = some kind ∧ literalForm? text kind = some (token, literal) ∧
      Denotes model token literal kind found ∧ ((found == v) = true ↔ v.LeapLast) := by
  cases v with
  | int32 n =>
      refine ⟨_, _, _, _, _, _, rfl, rfl, rfl, rfl, denotes_int32 n, iff_of_true ?_ trivial⟩
      exact Value.beq_self rfl (by decide)
  | int64 n =>
      refine ⟨_, _, _, _, _, _, rfl, rfl, rfl, rfl, denotes_int64 n, iff_of_true ?_ trivial⟩
      exact Value.beq_self rfl (by decide)
  | decimal d =>
      exact ⟨_, _, _, _, _, _, rfl, rfl, rfl, rfl, denotes_decimal d,
        iff_of_true (beq_unsignZero d) trivial⟩
  | binary bytes =>
      refine ⟨_, _, _, _, _, _, rfl, rfl, rfl, rfl, denotes_binary bytes, iff_of_true ?_ trivial⟩
      exact Value.beq_self rfl (by decide)
  | guid g =>
      refine ⟨_, _, _, _, _, _, rfl, rfl, rfl, rfl, denotes_guid g, iff_of_true ?_ trivial⟩
      exact Value.beq_self rfl (by decide)
  | date d =>
      refine ⟨_, _, _, _, _, _, rfl, rfl, rfl, rfl, denotes_date d h, iff_of_true ?_ trivial⟩
      exact Value.beq_self rfl (by decide)
  | timeOfDay t =>
      exact ⟨_, _, _, _, _, _, rfl, rfl, rfl, rfl, denotes_timeOfDay t,
        beq_settled_timeOfDay_iff t⟩
  | dateTimeOffset i =>
      exact ⟨_, _, _, _, _, _, rfl, rfl, rfl, rfl, denotes_dateTimeOffset i h.1 h.2,
        beq_settled_dateTimeOffset_iff i⟩
  | _ => exact h.elim

/-- The leap second at the end of 2016, on a clock west of Greenwich. -/
def leapSecond : Instant := ⟨1483228799, 1500000000, -18000, by decide, by decide⟩

example : leapSecond.text = "2016-12-31T18:59:60.500-05:00" := by decide +kernel

theorem pasted_value_reads_back_leapSecond :
    (Value.dateTimeOffset leapSecond).Pastable ∧ (Value.dateTimeOffset leapSecond).LeapLast ∧
      ∃ json text kind token literal found, (Value.dateTimeOffset leapSecond).toJson = .ok json ∧
        json.content? = some text ∧
        (Value.dateTimeOffset leapSecond).primitiveKind? = some kind ∧
        literalForm? text kind = some (token, literal) ∧
        Denotes Sample.model token literal kind found ∧
        (found == .dateTimeOffset leapSecond) = true := by
  have hpastable : (Value.dateTimeOffset leapSecond).Pastable := ⟨by decide, by decide, by decide⟩
  have hlast : (Value.dateTimeOffset leapSecond).LeapLast := fun _ => by decide
  obtain ⟨json, text, kind, token, literal, found, hjson, htext, hkind, hform, hdenotes, hequal⟩ :=
    pasted_value_reads_back Sample.model hpastable
  exact ⟨hpastable, hlast, json, text, kind, token, literal, found, hjson, htext, hkind, hform,
    hdenotes, hequal.2 hlast⟩

/-- A leap second that follows second 4 of a minute. -/
def leapWithin : TimeOfDay := ⟨86164, 1333333333, by decide, by decide⟩

/-- A leap second within a minute is written like the second after it.  The literal denotes that
one. -/
theorem leapWithin_reads_as_next_second :
    (Value.timeOfDay leapWithin).Pastable ∧
      (Value.timeOfDay leapWithin).toJson = .ok (.string "23:56:05.333333333") ∧
      literalForm? "23:56:05.333333333" .timeOfDay = some (.timeOfDay, "23:56:05.333333333") ∧
      ∃ next : TimeOfDay, next.seconds = 86165 ∧ next.nanos = 333333333 ∧
        Denotes Sample.model .timeOfDay "23:56:05.333333333" .timeOfDay (.timeOfDay next) ∧
        (Value.timeOfDay next == .timeOfDay leapWithin) = false := by
  have htext : leapWithin.text = "23:56:05.333333333" := by decide +kernel
  have hjson : (Value.timeOfDay leapWithin).toJson = .ok (.string leapWithin.text) := rfl
  rw [htext] at hjson
  exact ⟨trivial, hjson, rfl, leapWithin.settled, rfl, rfl, htext ▸ denotes_timeOfDay leapWithin,
    by decide⟩

end EntityQuery
