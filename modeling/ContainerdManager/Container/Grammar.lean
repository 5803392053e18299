import ContainerdManager.Container.Identifier
import ContainerdManager.Lib.Paths
import ContainerdManager.Lib.Regular

/-!
# The grammar of identifiers

`validate_identifier` of `src/util.rs` accepts the regular expression
`alnum+ ([._-] alnum+)*` of at most 76 bytes. The scan over the inner bytes
is the automaton of the expression between its first and its last letter.
An accepted id is therefore the name of a directory entry, and `log_dir_for`
of `src/logs.rs` gives every id a directory of its own.
-/

namespace ContainerdManager.Container

open Lib

/-- `alnum+ ([._-] alnum+)*`, as bytes. -/
def identifierGrammar : Language UInt8 := separated isAlnum isSep

theorem isSep_of_isAlnum {b : UInt8} (h : isAlnum b = true) : isSep b = false := by
  cases hs : isSep b with
  | false => rfl
  | true =>
    simp only [isSep, Bool.or_eq_true, decide_eq_true_eq] at hs
    rcases hs with (rfl | rfl) | rfl <;> cases h

/-- The scan of the inner bytes is the automaton, one letter before its end. -/
theorem validateInner_iff (id : String) (prevSep : Bool) (inner : List UInt8) (last : UInt8) :
    validateInner id prevSep inner = .ok () ∧ isAlnum last = true ↔
      scanSeparated isAlnum isSep prevSep (inner ++ [last]) = true := by
  induction inner generalizing prevSep with
  | nil =>
    by_cases ha : isAlnum last = true <;> simp [validateInner, scanSeparated, ha]
  | cons b inner ih =>
    rw [List.cons_append, validateInner, scanSeparated]
    by_cases ha : isAlnum b = true
    · simp only [if_pos ha]
      exact ih false
    · by_cases hs : isSep b = true
      · cases prevSep with
        | true => simp [ha, hs]
        | false => simpa [ha, hs] using ih true
      · simp [ha, hs]

theorem getLast?_concat {α : Type} (first last : α) (inner : List α) :
    (first :: (inner ++ [last])).getLast? = some last := by
  rw [← List.cons_append, List.getLast?_concat]

/-- **`validate_identifier` accepts exactly its grammar.** -/
theorem validateIdentifier_iff_grammar (id : String) :
    validateIdentifier id = .ok () ↔
      1 ≤ id.toUTF8.data.toList.length ∧ id.toUTF8.data.toList.length ≤ maxIdentifierLen ∧
        id.toUTF8.data.toList ∈ identifierGrammar := by
  unfold validateIdentifier identifierGrammar
  rw [(mem_separated_iff (fun _ => isSep_of_isAlnum) _).1]
  dsimp only
  generalize id.toUTF8.data.toList = bytes
  cases bytes with
  | nil => simp
  | cons first rest =>
    rcases List.eq_nil_or_concat rest with rfl | ⟨inner, last, rfl⟩
    · by_cases hf : isAlnum first = true <;> simp [scanSeparated, hf, maxIdentifierLen]
    · have hscan := validateInner_iff id false inner last
      simp only [List.concat_eq_append, List.isEmpty_cons, Bool.false_eq_true, if_false,
        List.head?_cons, Option.any_some, getLast?_concat, List.drop_one, List.tail_cons,
        List.dropLast_concat, scanSeparated, Bool.not_true, Bool.and_false, Bool.false_and]
      by_cases hlen : (first :: (inner ++ [last])).length > maxIdentifierLen
      · rw [if_pos hlen]
        exact ⟨fun h => by (cases h), fun h => absurd h.2.1 (Nat.not_le.mpr hlen)⟩
      rw [if_neg hlen]
      by_cases hf : isAlnum first = true
      · rw [if_pos hf, ← hscan]
        by_cases hl : isAlnum last = true
        · simp only [hf, hl, Bool.not_true, Bool.or_self, Bool.false_eq_true, if_false, and_true]
          cases inner with
          | nil => simp [validateInner, maxIdentifierLen]
          | cons b bs =>
            rw [if_neg (by simp)]
            exact ⟨fun h => ⟨by simp, Nat.le_of_not_lt hlen, h⟩, fun h => h.2.2⟩
        · simp [hl]
      · simp [hf]

/-! ## Log directories -/

/-- `log_dir_for`; `home` is what `home_dir` answers. -/
def logDirFor (home : Option String) (containerId : String) : Except Error String :=
  match home with
  | none => .error (.io "home directory")
  | some home =>
    .ok (String.ofList (Path.join (Path.join (Path.join home.toList ".containerd-manager".toList)
      "task-logs".toList) containerId.toList))

/-- `~/.containerd-manager/task-logs`. -/
def taskLogs (home : String) : List Char :=
  Path.join (Path.join home.toList ".containerd-manager".toList) "task-logs".toList

/-- `p` is a direct child of `dir`, under the name `c`. -/
structure ChildAt (dir p : List Char) (c : Path.Component) : Prop where
  normal : Path.Normal c
  components : Path.components p = Path.components dir ++ [c]
  absolute : Path.isAbsolute p = Path.isAbsolute dir

theorem childAt_join {dir : List Char} {c : Path.Component} (h : Path.Normal c) (hd : dir ≠ []) :
    ChildAt dir (Path.join dir c) c :=
  ⟨h, Path.components_join h dir, Path.isAbsolute_join h hd⟩

/-- An accepted id is the name of a directory entry. -/
theorem normal_of_validate {id : String} (h : validateIdentifier id = .ok ()) :
    Path.Normal id.toList := by
  have hne : ∀ s : String, validateIdentifier s ≠ .ok () → id.toList ≠ s.toList := by
    intro s hs he
    rw [String.toList_inj.mp he] at h
    exact hs h
  exact ⟨slash_notMem h, hne "" (by decide +kernel), hne "." (by decide +kernel),
    hne ".." (by decide +kernel)⟩

theorem taskLogs_ne_nil (home : String) : taskLogs home ≠ [] := by
  have hn : Path.Normal "task-logs".toList := ⟨by decide, by decide, by decide, by decide⟩
  intro h
  have hc := Path.components_join hn (Path.join home.toList ".containerd-manager".toList)
  rw [taskLogs] at h
  rw [h, Path.components_nil] at hc
  simp at hc

/-- **Distinct accepted ids get distinct directories**, direct children of the task-logs one. -/
theorem logDirFor_distinct (home id id' : String) (h : validateIdentifier id = .ok ())
    (h' : validateIdentifier id' = .ok ()) (hne : id ≠ id') :
    ∃ dir dir', logDirFor (some home) id = .ok dir ∧ logDirFor (some home) id' = .ok dir' ∧
      dir ≠ dir' ∧ ChildAt (taskLogs home) dir.toList id.toList ∧
      ChildAt (taskLogs home) dir'.toList id'.toList := by
  have hc := childAt_join (normal_of_validate h) (taskLogs_ne_nil home)
  have hc' := childAt_join (normal_of_validate h') (taskLogs_ne_nil home)
  refine ⟨_, _, rfl, rfl, fun he => hne ?_, by simpa [taskLogs] using hc,
    by simpa [taskLogs] using hc'⟩
  have hcomp := hc.components
  rw [taskLogs, String.ofList_inj.mp he, ← taskLogs, hc'.components] at hcomp
  exact String.toList_inj.mp (by simpa using hcomp.symm)

/-- **The accepted ids are those of the grammar, and each has a log directory of its own** below
any home directory; there is none without one. -/
theorem identifiers_separate_logs :
    (∀ id : String, validateIdentifier id = .ok () ↔
      1 ≤ id.toUTF8.data.toList.length ∧ id.toUTF8.data.toList.length ≤ maxIdentifierLen ∧
        id.toUTF8.data.toList ∈ identifierGrammar) ∧
    (∀ home id id' : String,
      validateIdentifier id = .ok () → validateIdentifier id' = .ok () → id ≠ id' →
      ∃ dir dir', logDirFor (some home) id = .ok dir ∧ logDirFor (some home) id' = .ok dir' ∧
        dir ≠ dir' ∧ ChildAt (taskLogs home) dir.toList id.toList ∧
        ChildAt (taskLogs home) dir'.toList id'.toList) ∧
    ∀ id dir : String, logDirFor none id ≠ .ok dir :=
  ⟨validateIdentifier_iff_grammar, logDirFor_distinct, nofun⟩

/-- The directories of the ids `web.1` and `db`. -/
theorem logs_of_web_and_db :
    validateIdentifier "web.1" = .ok () ∧ validateIdentifier "db" = .ok () ∧
    ∃ dir dir', logDirFor (some "/root") "web.1" = .ok dir ∧
      logDirFor (some "/root") "db" = .ok dir' ∧ dir ≠ dir' ∧
      ChildAt (taskLogs "/root") dir.toList "web.1".toList ∧
      ChildAt (taskLogs "/root") dir'.toList "db".toList :=
  have hweb : validateIdentifier "web.1" = .ok () := by decide +kernel
  have hdb : validateIdentifier "db" = .ok () := by decide +kernel
  ⟨hweb, hdb, identifiers_separate_logs.2.1 "/root" "web.1" "db" hweb hdb (by decide)⟩

end ContainerdManager.Container
