import Ceo.Attempt.Report
import Ceo.Jobs.Resend
import Ceo.Lib.Scan

/-!
# Three validators of one report

`ExecutionReport::validate` of the connector (`execution_contract.rs`),
`executionReportSchema` of the server (`jobs/execution-contract.ts`) and the
checks of the report script (`jobs/v2-assignment-script.ts`), and the script's
answer to a report that is sent again.
-/

namespace Ceo.Attempt

open Ceo.Lib Ceo.Jobs Function

namespace ExecutionReport

/-- What the server reads from the JSON of a report. A number out of the safe range is read as one
that is out of it too; the server's reports have no negative numbers, which `.min(0)` refuses. -/
def received (r : ExecutionReport) : Option Jobs.ExecutionReport :=
  if r.finishedAtMs < 0 ∨ r.durationMs < 0 then none
  else some
    { schemaVersion := r.schemaVersion
      executionStatus := r.executionStatus
      businessOutcome := r.businessOutcome
      taskDispatched := r.taskDispatched
      finishedAtMs := r.finishedAtMs.toNat
      durationMs := r.durationMs.toNat
      executor := r.executor
      receiptSha256 := r.receiptSha256
      error := r.error }

def SchemaAccepts (r : ExecutionReport) : Prop :=
  ∃ rep, r.received = some rep ∧ Guard.All (executionReportSchema rep)

/-- The three validators agree on the report, and it can be sent again. -/
structure Agreed (r : ExecutionReport) : Prop where
  accepts : r.validate = .ok () ↔ r.SchemaAccepts
  shape : ∀ rep, r.received = some rep → Guard.All (executionReportSchema rep) →
    reportInvariants rep = .ok ()
  replays : ∀ rep, r.received = some rep → Guard.All (executionReportSchema rep) → Replays rep

/-! ### when they agree -/

/-- The texts that must not be blank. -/
def texts (r : ExecutionReport) : List String :=
  r.executor.version :: r.error.toList.map (·.message)

def rustBlank (s : String) : Bool := (trim s).isEmpty

/-- A name of 1 to 64 characters of one class. -/
def nameOk (cls : Char → Bool) (s : String) : Bool :=
  !s.isEmpty && s.utf8ByteSize ≤ 64 && s.toList.all cls

/-- All that both sides check, the blank texts apart. -/
structure OtherChecks (r : ExecutionReport) : Prop where
  schemaVersion : r.schemaVersion = reportSchemaVersion
  finishedAt : 0 ≤ r.finishedAtMs ∧ r.finishedAtMs ≤ maxSafeInteger
  duration : 0 ≤ r.durationMs ∧ r.durationMs ≤ maxSafeInteger
  error_iff : r.executionStatus = .completed ↔ r.error = none
  undispatched : r.taskDispatched = false → r.businessOutcome = .notStarted
  executorType : nameOk (fun c => isAsciiAlphanumeric c || c == '_' || c == '.' || c == '-')
    r.executor.type = true
  version : r.executor.version.utf8ByteSize ≤ maxExecutorVersionBytes
  receipt : isSha256Hex r.receiptSha256 = true
  stage : ∀ e, r.error = some e →
    nameOk (fun c => isAsciiAlphanumeric c || c == '_' || c == '-') e.stage = true
  code : ∀ e, r.error = some e → nameOk (fun c => c.isUpper || c.isDigit || c == '_') e.code = true
  message : ∀ e, r.error = some e → e.message.utf8ByteSize ≤ maxReportErrorMessageBytes

/-- Both times have at most 14 significant digits, up to trailing zeros. -/
def ExactTimes (r : ExecutionReport) : Prop :=
  Cjson.num r.finishedAtMs.toNat = r.finishedAtMs.toNat ∧
    Cjson.num r.durationMs.toNat = r.durationMs.toNat

end ExecutionReport

/-! ### names and texts -/

theorem isLower_eq (c : Char) : c.isLower = ('a' ≤ c && c ≤ 'z') := by
  have h : c.isLower = (decide (c.val ≥ 'a'.val) && decide (c.val ≤ 'z'.val)) := rfl
  simp [h, Char.le_def]

theorem isUpper_eq (c : Char) : c.isUpper = ('A' ≤ c && c ≤ 'Z') := by
  have h : c.isUpper = decide (c.val ≥ 'A'.val ∧ c.val ≤ 'Z'.val) := rfl
  simp [h, Char.le_def]

theorem isDigit_eq (c : Char) : c.isDigit = Pattern.digit c := by
  simp [Char.isDigit, Pattern.digit, Char.le_def]

theorem isAsciiAlphanumeric_eq (c : Char) :
    isAsciiAlphanumeric c = (letter c || Pattern.digit c) := by
  have h : c.isAlpha = (c.isUpper || c.isLower) := rfl
  simp only [isAsciiAlphanumeric, Char.isAlphanum, h, letter, isLower_eq, isUpper_eq, isDigit_eq]
  rw [Bool.or_comm ('A' ≤ c && c ≤ 'Z' : Bool)]

theorem oneByte_of_lt {cls : Char → Bool} (h : ∀ c, cls c = true → c.toNat < 128) :
    Pattern.OneByte cls := by
  intro c hc
  rw [Char.utf8Size_eq_one_iff, UInt32.le_iff_toNat_le]
  exact Nat.le_of_lt_succ (h c hc)

theorem letter_lt {c : Char} (h : letter c = true) : c.toNat < 128 := by
  simp only [letter, Bool.or_eq_true, Bool.and_eq_true, decide_eq_true_eq, Char.le_def,
    UInt32.le_iff_toNat_le] at h
  show c.val.toNat < 128
  have hz : 'z'.val.toNat = 122 := rfl
  have hZ : 'Z'.val.toNat = 90 := rfl
  omega

theorem digit_lt {c : Char} (h : Pattern.digit c = true) : c.toNat < 128 := by
  simp only [Pattern.digit, Bool.and_eq_true, decide_eq_true_eq, Char.le_def,
    UInt32.le_iff_toNat_le] at h
  show c.val.toNat < 128
  have h9 : '9'.val.toNat = 57 := rfl
  omega

/-- On one-byte characters a string is as long in JavaScript as in Rust. -/
theorem jsLength_of_oneByte {cls : Char → Bool} (h : Pattern.OneByte cls) {s : String}
    (hs : s.toList.all cls = true) : jsLength s = s.utf8ByteSize := by
  rw [jsLength, Pattern.utf8ByteSize_eq]
  congr 1
  refine List.map_congr_left fun c hc => ?_
  have h1 := h c (List.all_eq_true.1 hs c hc)
  rw [h1, if_pos]
  rw [Char.utf8Size_eq_one_iff, UInt32.le_iff_toNat_le] at h1
  exact lt_of_le_of_lt h1 (by decide)

theorem jsLength_pos {s : String} : 1 ≤ jsLength s ↔ s.isEmpty = false := by
  rw [← Bool.not_eq_true, String.isEmpty_iff, ← String.toList_eq_nil_iff, jsLength]
  cases s.toList with
  | nil => simp
  | cons c cs =>
    simp only [List.map_cons, List.sum_cons, reduceCtorEq, not_false_eq_true, iff_true]
    split_ifs <;> omega

theorem nameGuards_iff {cls : Char → Bool} (h : Pattern.OneByte cls) (message s : String) :
    Guard.All (nameGuards cls message s) ↔ ExecutionReport.nameOk cls s = true := by
  have empty : (s != "") = !s.isEmpty := by
    rw [Bool.eq_iff_iff]
    simp
  simp only [nameGuards, ExecutionReport.nameOk, Guard.all_cons, Guard.all_nil, and_true,
    decide_eq_true_eq, jsLength_pos, empty, Bool.and_eq_true, Bool.not_eq_true']
  constructor
  · rintro ⟨-, hlen, hne, hall⟩
    exact ⟨⟨hne, jsLength_of_oneByte h hall ▸ hlen⟩, hall⟩
  · rintro ⟨⟨hne, hlen⟩, hall⟩
    exact ⟨hne, jsLength_of_oneByte h hall ▸ hlen, hne, hall⟩

theorem textGuards_iff (field : String) (bytes : Nat) (size s : String) :
    Guard.All (textGuards field bytes size s) ↔
      isWhitespaceOnly s = false ∧ s.utf8ByteSize ≤ bytes := by
  simp only [textGuards, Guard.all_cons, Guard.all_nil, and_true, decide_eq_true_eq,
    Bool.not_eq_true', jsLength_pos]
  refine and_iff_right_of_imp ?_
  rintro ⟨hw, -⟩
  rw [← Bool.not_eq_true, String.isEmpty_iff]
  rintro rfl
  cases hw

theorem rustBlank_eq (s : String) : ExecutionReport.rustBlank s = s.toList.all isRustSpace := by
  rw [Bool.eq_iff_iff, ExecutionReport.rustBlank, trim, String.isEmpty_iff,
    ← String.toList_eq_nil_iff, String.toList_ofList, List.reverse_eq_nil_iff, Scan.strip_eq_nil_iff]

/-! ### the two schemas -/

theorem rustName_eq :
    (fun c => isAsciiAlphanumeric c || c == '_' || c == '-') =
      fun c => letter c || Pattern.digit c || c == '_' || c == '-' := by
  funext c
  rw [isAsciiAlphanumeric_eq]

theorem rustCode_eq :
    (fun c : Char => c.isUpper || c.isDigit || c == '_') =
      fun c => ('A' ≤ c && c ≤ 'Z') || Pattern.digit c || c == '_' := by
  funext c
  rw [isUpper_eq, isDigit_eq]

theorem rustType_eq :
    (fun c => isAsciiAlphanumeric c || c == '_' || c == '.' || c == '-') =
      fun c => letter c || Pattern.digit c || c == '_' || c == '.' || c == '-' := by
  funext c
  rw [isAsciiAlphanumeric_eq]

theorem oneByte_name :
    Pattern.OneByte fun c => letter c || Pattern.digit c || c == '_' || c == '-' := by
  refine oneByte_of_lt fun c h => ?_
  simp only [Bool.or_eq_true, beq_iff_eq] at h
  rcases h with ((h | h) | rfl) | rfl
  · exact letter_lt h
  · exact digit_lt h
  all_goals decide

theorem oneByte_code :
    Pattern.OneByte fun c => ('A' ≤ c && c ≤ 'Z') || Pattern.digit c || c == '_' := by
  refine oneByte_of_lt fun c h => ?_
  simp only [Bool.or_eq_true, beq_iff_eq] at h
  rcases h with (h | h) | rfl
  · exact letter_lt (by simp [letter, h])
  · exact digit_lt h
  · decide

theorem oneByte_type :
    Pattern.OneByte fun c => letter c || Pattern.digit c || c == '_' || c == '.' || c == '-' := by
  refine oneByte_of_lt fun c h => ?_
  simp only [Bool.or_eq_true, beq_iff_eq] at h
  rcases h with (((h | h) | rfl) | rfl) | rfl
  · exact letter_lt h
  · exact digit_lt h
  all_goals decide

theorem errorGuards_iff (e : ExecutionReportError) :
    Guard.All (ExecutionReport.errorGuards e) ↔
      ExecutionReport.nameOk (fun c => isAsciiAlphanumeric c || c == '_' || c == '-') e.stage = true ∧
      ExecutionReport.nameOk (fun c => c.isUpper || c.isDigit || c == '_') e.code = true ∧
      e.message.utf8ByteSize ≤ maxReportErrorMessageBytes ∧
      ExecutionReport.rustBlank e.message = false := by
  have text : (!(trim e.message).isEmpty && e.message.utf8ByteSize ≤ maxReportErrorMessageBytes) =
      true ↔ e.message.utf8ByteSize ≤ maxReportErrorMessageBytes ∧
        ExecutionReport.rustBlank e.message = false := by
    rw [Bool.and_eq_true, Bool.not_eq_true', decide_eq_true_iff, and_comm]
    rfl
  rw [← text]
  simp only [ExecutionReport.errorGuards, ExecutionReport.nameOk, Guard.all_cons, Guard.all_nil,
    and_true]

theorem reportErrorSchema_iff (e : ExecutionReportError) :
    Guard.All (reportErrorSchema e) ↔
      ExecutionReport.nameOk (fun c => isAsciiAlphanumeric c || c == '_' || c == '-') e.stage = true ∧
      ExecutionReport.nameOk (fun c => c.isUpper || c.isDigit || c == '_') e.code = true ∧
      e.message.utf8ByteSize ≤ maxReportErrorMessageBytes ∧ isWhitespaceOnly e.message = false := by
  rw [rustName_eq, rustCode_eq, reportErrorSchema, Guard.all_append, Guard.all_append,
    nameGuards_iff oneByte_name, nameGuards_iff oneByte_code, textGuards_iff, and_assoc,
    and_comm (a := isWhitespaceOnly e.message = false)]
  rfl

theorem executorSchema_iff (e : ExecutionReportExecutor) :
    Guard.All (executorSchema e) ↔
      ExecutionReport.nameOk (fun c => isAsciiAlphanumeric c || c == '_' || c == '.' || c == '-')
        e.type = true ∧
      e.version.utf8ByteSize ≤ maxExecutorVersionBytes ∧ isWhitespaceOnly e.version = false := by
  rw [rustType_eq, executorSchema, Guard.all_append, nameGuards_iff oneByte_type, textGuards_iff,
    and_comm (a := isWhitespaceOnly e.version = false)]
  rfl

namespace ExecutionReport

variable {r : ExecutionReport}

/-- The two checks on the status and the error, and the two on the outcome. -/
theorem status_iff : ((!(r.executionStatus == .completed && r.error.isSome)) = true ∧
      (!(r.executionStatus != .completed && r.error.isNone)) = true) ↔
    (r.executionStatus = .completed ↔ r.error = none) := by
  cases r.executionStatus <;> cases r.error <;> simp

theorem outcome_iff : ((!(!r.taskDispatched && r.businessOutcome != .notStarted)) = true ∧
      (!(r.businessOutcome == .unverified && !r.taskDispatched)) = true) ↔
    (r.taskDispatched = false → r.businessOutcome = .notStarted) := by
  cases r.taskDispatched <;> cases r.businessOutcome <;> simp

theorem error_checks {P : ExecutionReportError → List Guard} {Q : String → Bool}
    (h : ∀ e, Guard.All (P e) ↔ nameOk (fun c => isAsciiAlphanumeric c || c == '_' || c == '-')
        e.stage = true ∧ nameOk (fun c => c.isUpper || c.isDigit || c == '_') e.code = true ∧
      e.message.utf8ByteSize ≤ maxReportErrorMessageBytes ∧ Q e.message = false) :
    Guard.All (match r.error with | none => [] | some e => P e) ↔
      (∀ e, r.error = some e →
        nameOk (fun c => isAsciiAlphanumeric c || c == '_' || c == '-') e.stage = true) ∧
      (∀ e, r.error = some e →
        nameOk (fun c => c.isUpper || c.isDigit || c == '_') e.code = true) ∧
      (∀ e, r.error = some e → e.message.utf8ByteSize ≤ maxReportErrorMessageBytes) ∧
      ∀ t ∈ r.error.toList.map (·.message), Q t = false := by
  cases r.error with
  | none => simp
  | some e => simp [h]

theorem validate_iff : r.validate = .ok () ↔ r.OtherChecks ∧ ∀ t ∈ r.texts, rustBlank t = false := by
  rw [validate_ok_iff, guards, Guard.all_append]
  refine (and_congr Iff.rfl (error_checks (r := r) errorGuards_iff)).trans ?_
  simp only [Guard.all_cons, Guard.all_nil, and_true]
  constructor
  · rintro ⟨⟨hver, hfin, hdur, hdone, herr, hund, hunv, htype, hversion, hsha⟩, hstage, hcode, hmsg,
      htexts⟩
    rw [Bool.and_eq_true, decide_eq_true_iff, decide_eq_true_iff] at hfin hdur
    rw [Bool.and_eq_true, Bool.not_eq_true', decide_eq_true_iff] at hversion
    exact ⟨⟨beq_iff_eq.1 hver, hfin, hdur, status_iff.1 ⟨hdone, herr⟩, outcome_iff.1 ⟨hund, hunv⟩,
      htype, hversion.2, hsha, hstage, hcode, hmsg⟩, List.forall_mem_cons.2 ⟨hversion.1, htexts⟩⟩
  · rintro ⟨o, htexts⟩
    obtain ⟨hversion, htexts⟩ := List.forall_mem_cons.1 htexts
    have time {n : Int} (h : 0 ≤ n ∧ n ≤ maxSafeInteger) :
        (decide (0 ≤ n) && decide (n ≤ maxSafeInteger)) = true := by
      rwa [Bool.and_eq_true, decide_eq_true_iff, decide_eq_true_iff]
    have hversion : (!(trim r.executor.version).isEmpty &&
        decide (r.executor.version.utf8ByteSize ≤ maxExecutorVersionBytes)) = true := by
      rw [Bool.and_eq_true, Bool.not_eq_true', decide_eq_true_iff]
      exact ⟨hversion, o.version⟩
    exact ⟨⟨beq_iff_eq.2 o.schemaVersion, time o.finishedAt, time o.duration,
      (status_iff.2 o.error_iff).1, (status_iff.2 o.error_iff).2, (outcome_iff.2 o.undispatched).1,
      (outcome_iff.2 o.undispatched).2, o.executorType, hversion, o.receipt⟩, o.stage, o.code,
      o.message, htexts⟩

/-- The report the server reads when neither time is negative. -/
theorem received_eq (hf : 0 ≤ r.finishedAtMs) (hd : 0 ≤ r.durationMs) :
    ∃ rep, r.received = some rep ∧
      (Guard.All (executionReportSchema rep) ↔
        r.OtherChecks ∧ ∀ t ∈ r.texts, isWhitespaceOnly t = false) := by
  refine ⟨_, if_neg (by omega), ?_⟩
  have safe {n : Int} (h : 0 ≤ n) : n.toNat ≤ Jobs.maxSafeInteger ↔ 0 ≤ n ∧ n ≤ maxSafeInteger := by
    rw [Int.toNat_le, show (Jobs.maxSafeInteger : Int) = maxSafeInteger from rfl]
    exact (and_iff_right h).symm
  rw [executionReportSchema, reportFields, Guard.all_append, Guard.all_append, Guard.all_append,
    Guard.all_append, executorSchema_iff]
  refine (and_congr (and_congr Iff.rfl (error_checks (r := r) reportErrorSchema_iff)) Iff.rfl).trans ?_
  simp only [reportRefinements, safeIntegerGuard, sha256Hex, Guard.all_cons, Guard.all_nil, and_true,
    decide_eq_true_iff, safe hf, safe hd]
  constructor
  · rintro ⟨⟨⟨⟨⟨hver, hfin, hdur⟩, htype, hbytes, hversion⟩, hsha⟩, hstage, hcode, hmsg, htexts⟩,
      hdone, herr, hund, hunv⟩
    exact ⟨⟨beq_iff_eq.1 hver, hfin, hdur, status_iff.1 ⟨hdone, herr⟩, outcome_iff.1 ⟨hund, hunv⟩,
      htype, hbytes, hsha, hstage, hcode, hmsg⟩, List.forall_mem_cons.2 ⟨hversion, htexts⟩⟩
  · rintro ⟨o, htexts⟩
    obtain ⟨hversion, htexts⟩ := List.forall_mem_cons.1 htexts
    exact ⟨⟨⟨⟨⟨beq_iff_eq.2 o.schemaVersion, o.finishedAt, o.duration⟩, o.executorType, o.version,
      hversion⟩, o.receipt⟩, o.stage, o.code, o.message, htexts⟩, (status_iff.2 o.error_iff).1,
      (status_iff.2 o.error_iff).2, (outcome_iff.2 o.undispatched).1,
      (outcome_iff.2 o.undispatched).2⟩

theorem schemaAccepts_iff :
    r.SchemaAccepts ↔ r.OtherChecks ∧ ∀ t ∈ r.texts, isWhitespaceOnly t = false := by
  constructor
  · rintro ⟨rep, hrep, hall⟩
    have hneg : ¬(r.finishedAtMs < 0 ∨ r.durationMs < 0) := fun h => by simp [received, h] at hrep
    obtain ⟨rep', hrep', hiff⟩ := received_eq (r := r) (by omega) (by omega)
    rw [hrep] at hrep'
    cases hrep'
    exact hiff.1 hall
  · rintro ⟨o, htexts⟩
    obtain ⟨rep, hrep, hiff⟩ := received_eq (r := r) o.finishedAt.1 o.duration.1
    exact ⟨rep, hrep, hiff.2 ⟨o, htexts⟩⟩

theorem received_exact {rep : Jobs.ExecutionReport} (h : r.received = some rep) :
    Jobs.ExactTimes rep ↔ r.ExactTimes := by
  unfold received at h
  split_ifs at h
  cases h
  rfl

theorem accepts_iff : (r.validate = .ok () ↔ r.SchemaAccepts) ↔
    (r.OtherChecks → ((∃ t ∈ r.texts, rustBlank t = true) ↔
      ∃ t ∈ r.texts, isWhitespaceOnly t = true)) := by
  have none_blank {blank : String → Bool} :
      (∀ t ∈ r.texts, blank t = false) ↔ ¬∃ t ∈ r.texts, blank t = true := by
    simp
  rw [validate_iff, schemaAccepts_iff, none_blank, none_blank]
  by_cases o : r.OtherChecks
  · rw [and_iff_right o, and_iff_right o, not_iff_not]
    exact ⟨fun h _ => h, fun h => h o⟩
  · exact ⟨fun _ h => absurd h o, fun _ => ⟨fun h => absurd h.1 o, fun h => absurd h.1 o⟩⟩

/-- The validators agree on a report, and it can be sent again, exactly when it fails some other
check, or a text is blank for Rust just when one is for JavaScript and, when none is, the encoder
keeps the times. -/
theorem agreed_iff (r : ExecutionReport) :
    r.Agreed ↔ (r.OtherChecks →
      ((∃ t ∈ r.texts, rustBlank t = true) ↔ ∃ t ∈ r.texts, isWhitespaceOnly t = true) ∧
      ((∀ t ∈ r.texts, isWhitespaceOnly t = false) → r.ExactTimes)) := by
  constructor
  · intro a o
    refine ⟨accepts_iff.1 a.accepts o, fun htexts => ?_⟩
    obtain ⟨rep, hrep, hok⟩ := schemaAccepts_iff.2 ⟨o, htexts⟩
    exact (received_exact hrep).1 ((replays_iff hok).1 (a.replays rep hrep hok))
  · intro h
    refine ⟨accepts_iff.2 fun o => (h o).1, fun rep _ hok => reportInvariants_of_schema hok, ?_⟩
    intro rep hrep hok
    obtain ⟨o, htexts⟩ := schemaAccepts_iff.1 ⟨rep, hrep, hok⟩
    exact (replays_iff hok).2 ((received_exact hrep).2 ((h o).2 htexts))

/-! ### where the blanks differ -/

/-- White space of both languages. -/
def commonSpace (c : Char) : Bool := isRustSpace c && isJsSpace c

theorem isRustSpace_eq (c : Char) : isRustSpace c = (commonSpace c || c.toNat == 0x85) := by
  rw [Bool.eq_iff_iff]
  simp only [commonSpace, isRustSpace, isJsSpace, Bool.or_eq_true, Bool.and_eq_true,
    decide_eq_true_eq, beq_iff_eq]
  omega

theorem isJsSpace_eq (c : Char) : isJsSpace c = (commonSpace c || c.toNat == 0xFEFF) := by
  rw [Bool.eq_iff_iff]
  simp only [commonSpace, isRustSpace, isJsSpace, Bool.or_eq_true, Bool.and_eq_true,
    decide_eq_true_eq, beq_iff_eq]
  omega

/-- A text is blank for Rust alone when it is white space with a next-line in it, and for
JavaScript alone when it is white space with a byte order mark in it. -/
theorem blank_differs (s : String) :
    (rustBlank s = true ∧ isWhitespaceOnly s = false ↔
      s.toList.all (fun c => commonSpace c || c.toNat == 0x85) = true ∧
        ∃ c ∈ s.toList, c.toNat = 0x85) ∧
    (rustBlank s = false ∧ isWhitespaceOnly s = true ↔
      s.toList.all (fun c => commonSpace c || c.toNat == 0xFEFF) = true ∧
        ∃ c ∈ s.toList, c.toNat = 0xFEFF) := by
  have next_line {c : Char} (h : c.toNat = 0x85) : isJsSpace c = false := by
    simp [isJsSpace, h]
  have mark {c : Char} (h : c.toNat = 0xFEFF) : isRustSpace c = false := by
    simp [isRustSpace, h]
  have other {p q : Char → Bool} {n : Nat} (hq : ∀ c, q c = (commonSpace c || c.toNat == n))
      (hp : ∀ c, commonSpace c = true → p c = true) (hn : ∀ c : Char, c.toNat = n → p c = false) :
      (s.toList.all q = true ∧ s.toList.all p = false ↔
        s.toList.all (fun c => commonSpace c || c.toNat == n) = true ∧
          ∃ c ∈ s.toList, c.toNat = n) := by
    rw [show q = fun c => commonSpace c || c.toNat == n from funext hq]
    refine and_congr_right fun hall => ?_
    rw [← Bool.not_eq_true, List.all_eq_true, not_forall]
    constructor
    · rintro ⟨c, hc⟩
      rw [Classical.not_imp] at hc
      have hcase := List.all_eq_true.1 hall c hc.1
      rw [Bool.or_eq_true, beq_iff_eq] at hcase
      exact ⟨c, hc.1, hcase.resolve_left fun h => hc.2 (hp c h)⟩
    · rintro ⟨c, hc, hcn⟩
      exact ⟨c, fun h => by simp [hn c hcn] at h; exact h hc⟩
  rw [rustBlank_eq, isWhitespaceOnly]
  refine ⟨other isRustSpace_eq (fun c h => ?_) fun c h => next_line h, ?_⟩
  · rw [isJsSpace_eq, h]
    rfl
  · rw [and_comm]
    refine other isJsSpace_eq (fun c h => ?_) fun c h => mark h
    rw [isRustSpace_eq, h]
    rfl

/-! ### two reports they disagree on -/

def sampleReport (version : String) (finishedAtMs : Int) : ExecutionReport :=
  { schemaVersion := reportSchemaVersion
    executionStatus := .completed
    businessOutcome := .unverified
    taskDispatched := true
    finishedAtMs := finishedAtMs
    durationMs := 500
    executor := ⟨"codex", version⟩
    receiptSha256 := "3333333333333333333333333333333333333333333333333333333333333333"
    error := none }

theorem sampleReport_checks {version : String} {finishedAtMs : Int}
    (hversion : version.utf8ByteSize ≤ maxExecutorVersionBytes)
    (htime : 0 ≤ finishedAtMs ∧ finishedAtMs ≤ maxSafeInteger) :
    (sampleReport version finishedAtMs).OtherChecks where
  schemaVersion := rfl
  finishedAt := htime
  duration := ⟨show (0 : Int) ≤ 500 by decide, show (500 : Int) ≤ maxSafeInteger by decide⟩
  error_iff := ⟨fun _ => rfl, fun _ => rfl⟩
  undispatched := fun h => (by cases h)
  executorType := show nameOk _ "codex" = true by decide +kernel
  version := hversion
  receipt := show isSha256Hex
    "3333333333333333333333333333333333333333333333333333333333333333" = true by decide +kernel
  stage := fun e h => (by cases h)
  code := fun e h => (by cases h)
  message := fun e h => (by cases h)

/-- Rust accepts a version that is a byte order mark, the schema does not; and a report of the
year 5138 is stored as of another time. -/
theorem not_agreed :
    ¬(sampleReport "\uFEFF" 3000).Agreed ∧ ¬(sampleReport "1.0.0" 100000000000001).Agreed := by
  constructor
  · intro a
    have o := @sampleReport_checks "\uFEFF" 3000 (by decide) (by decide)
    have blank := (accepts_iff.1 a.accepts o).2 ⟨"\uFEFF", List.mem_singleton_self _, by decide⟩
    obtain ⟨t, ht, hblank⟩ := blank
    rw [List.mem_singleton.1 ht] at hblank
    exact absurd hblank (by decide)
  · intro a
    have o := @sampleReport_checks "1.0.0" 100000000000001
      (by decide) (by decide)
    obtain ⟨rep, hrep, hok⟩ := schemaAccepts_iff.2 ⟨o, fun t ht => by
      rw [List.mem_singleton.1 ht]
      decide⟩
    have exact := (received_exact hrep).1 ((replays_iff hok).1 (a.replays rep hrep hok))
    exact absurd exact.1 (by decide +kernel)

end ExecutionReport

end Ceo.Attempt
