import Counselle.Records.Emission
import Counselle.Text

/-! `derive_receipt` of `app/records.py`: the one-line activity receipt, and the
counts it can be read back to. -/
namespace Counselle.Records
open Protocol Text

inductive ReceiptCategory where
  | database
  | web
  | reddit
  | visualization
  | other
deriving DecidableEq, Repr

def categoryOf : StepKind → ReceiptCategory
  | .dbTool => .database
  | .sql => .database
  | .webSearch => .web
  | .eduSearch => .web
  | .redditSearch => .reddit
  | .viz => .visualization
  | _ => .other

def ReceiptCategory.words : ReceiptCategory → String × String
  | .database => ("database lookup", "database lookups")
  | .web => ("web search", "web searches")
  | .reddit => ("Reddit search", "Reddit searches")
  | .visualization => ("visualization", "visualizations")
  | .other => ("step", "steps")

def receiptLabel (category : ReceiptCategory) (n : Nat) : String :=
  toString n ++ " " ++ if n = 1 then category.words.1 else category.words.2

def receiptSeparator : String := " · "

/-- The labels in their fixed order, zero counts left out. -/
def receiptLabels (counts : ReceiptCategory → Nat) : List String :=
  [.database, .web, .reddit, .visualization, .other].filterMap fun category =>
    if counts category = 0 then none else some (receiptLabel category (counts category))

def receiptLine (counts : ReceiptCategory → Nat) : String :=
  receiptSeparator.intercalate (receiptLabels counts)

def deriveReceipt (steps : List StepData) (thinking : List String) : String :=
  if steps.isEmpty && thinking.isEmpty then ""
  else
    let kindById : AList fun _ : String => StepKind :=
      steps.foldl (fun dict step => dict.insert step.stepId step.kind) ∅
    let kinds := kindById.entries.map (·.2)
    let db := kinds.countP fun k => k = .dbTool ∨ k = .sql
    let web := kinds.countP fun k => k = .webSearch ∨ k = .eduSearch
    let reddit := kinds.countP fun k => k = .redditSearch
    let viz := kinds.countP fun k => k = .viz
    -- natural subtraction is the clamp at zero
    let other := kinds.length - db - web - reddit - viz
    receiptLine fun
      | .database => db
      | .web => web
      | .reddit => reddit
      | .visualization => viz
      | .other => other

theorem label_words {category second : ReceiptCategory} {n : Nat}
    (same : (if n = 1 then category.words.1 else category.words.2) =
      if n = 1 then second.words.1 else second.words.2) : category = second := by
  by_cases one : n = 1
  · rw [if_pos one, if_pos one] at same
    revert same
    cases category <;> cases second <;> decide
  · rw [if_neg one, if_neg one] at same
    revert same
    cases category <;> cases second <;> decide

theorem receiptLabel_inj {category second : ReceiptCategory} {n m : Nat}
    (same : receiptLabel category n = receiptLabel second m) : category = second ∧ n = m := by
  obtain ⟨numbers, words⟩ := numbered_inj same
  subst numbers
  exact ⟨label_words words, rfl⟩

theorem receiptLabel_plain (category : ReceiptCategory) (n : Nat) :
    '·' ∉ (receiptLabel category n).toList ∧ receiptLabel category n ≠ "" := by
  have words : '·' ∉ (if n = 1 then category.words.1 else category.words.2).toList := by
    split <;> cases category <;> decide
  constructor
  · simp only [receiptLabel, String.toList_append, List.mem_append, not_or]
    exact ⟨⟨not_mem_repr (by decide) n, by decide⟩, words⟩
  · intro empty
    have blank := congrArg String.toList empty
    simp [receiptLabel] at blank

theorem mem_receiptLabels {counts : ReceiptCategory → Nat} {category : ReceiptCategory} {n : Nat} :
    receiptLabel category n ∈ receiptLabels counts ↔ counts category = n ∧ n ≠ 0 := by
  constructor
  · intro present
    obtain ⟨second, _, labelled⟩ := List.mem_filterMap.mp present
    split at labelled
    · cases labelled
    case isFalse nonzero =>
      obtain ⟨rfl, rfl⟩ := receiptLabel_inj (Option.some.inj labelled)
      exact ⟨rfl, nonzero⟩
  · rintro ⟨rfl, nonzero⟩
    refine List.mem_filterMap.mpr ⟨category, ?_, if_neg nonzero⟩
    cases category <;> decide

theorem separator_split : receiptSeparator.toList = [' '] ++ '·' :: [' '] := by decide

theorem receiptLine_inj {first second : ReceiptCategory → Nat}
    (same : receiptLine first = receiptLine second) : first = second := by
  have plain : ∀ counts, ∀ label ∈ receiptLabels counts, '·' ∉ label.toList ∧ label ≠ "" := by
    intro counts label present
    obtain ⟨category, _, labelled⟩ := List.mem_filterMap.mp present
    split at labelled
    · cases labelled
    · rw [← Option.some.inj labelled]
      exact receiptLabel_plain _ _
  have labels : receiptLabels first = receiptLabels second :=
    intercalate_inj separator_split (by decide) (plain first) (plain second) same
  funext category
  by_cases absent : first category = 0
  · by_contra differ
    have present : second category ≠ 0 := fun zero => differ (by rw [absent, zero])
    have listed := mem_receiptLabels.mpr ⟨rfl, present⟩
    rw [← labels] at listed
    exact differ (mem_receiptLabels.mp listed).1
  · have listed := mem_receiptLabels.mpr ⟨rfl, absent⟩
    rw [labels] at listed
    exact (mem_receiptLabels.mp listed).1.symm

def lastKind (frames : List StepData) (stepId : String) : Option StepKind :=
  (frames.filter (·.stepId = stepId)).getLast?.map (·.kind)

def endingIn (frames : List StepData) (category : ReceiptCategory) : List String :=
  (frames.map (·.stepId)).dedup.filter fun stepId =>
    (lastKind frames stepId).any (categoryOf · = category)

/-- One pair for each step of `frames`, with the kind of its last frame. -/
structure LastKinds (frames : List StepData) (pairs : List (String × StepKind)) : Prop where
  nodup : (pairs.map Prod.fst).Nodup
  mem : ∀ stepId kind, (stepId, kind) ∈ pairs ↔ lastKind frames stepId = some kind

theorem stepId_mem {frames : List StepData} {stepId : String} {kind : StepKind}
    (last : lastKind frames stepId = some kind) : stepId ∈ frames.map (·.stepId) := by
  obtain ⟨frame, ends, _⟩ := Option.map_eq_some_iff.mp last
  have present := List.mem_filter.mp (List.mem_of_getLast? ends)
  exact List.mem_map.mpr ⟨frame, present.1, by simpa using present.2⟩

theorem lastKind_isSome {frames : List StepData} {frame : StepData} (present : frame ∈ frames) :
    ∃ kind, lastKind frames frame.stepId = some kind := by
  have nonempty : frames.filter (·.stepId = frame.stepId) ≠ [] :=
    List.ne_nil_of_mem (List.mem_filter.mpr ⟨present, by simp⟩)
  exact ⟨_, by rw [lastKind, List.getLast?_eq_some_getLast nonempty]; rfl⟩

theorem mem_endingIn {frames : List StepData} {category : ReceiptCategory} {stepId : String} :
    stepId ∈ endingIn frames category ↔
      ∃ kind, lastKind frames stepId = some kind ∧ categoryOf kind = category := by
  simp only [endingIn, List.mem_filter, List.mem_dedup, Option.any_eq_true, decide_eq_true_eq]
  constructor
  · rintro ⟨_, found⟩
    exact found
  · rintro ⟨kind, last, fits⟩
    exact ⟨stepId_mem last, kind, last, fits⟩

theorem LastKinds.count {frames : List StepData} {pairs : List (String × StepKind)}
    (kinds : LastKinds frames pairs) (category : ReceiptCategory) :
    (pairs.map Prod.snd).countP (categoryOf · = category) = (endingIn frames category).length := by
  have members : ∀ stepId, stepId ∈ (pairs.filter (categoryOf ·.2 = category)).map Prod.fst ↔
      stepId ∈ endingIn frames category := by
    intro stepId
    simp only [mem_endingIn, List.mem_map, List.mem_filter, decide_eq_true_eq]
    constructor
    · rintro ⟨⟨_, kind⟩, ⟨present, fits⟩, rfl⟩
      exact ⟨kind, (kinds.mem _ _).mp present, fits⟩
    · rintro ⟨kind, last, fits⟩
      exact ⟨(stepId, kind), ⟨(kinds.mem _ _).mpr last, fits⟩, rfl⟩
  have left : ((pairs.filter (categoryOf ·.2 = category)).map Prod.fst).Nodup :=
    (List.filter_sublist.map _).nodup kinds.nodup
  have right : (endingIn frames category).Nodup := (List.nodup_dedup _).filter _
  have perm := (List.perm_ext_iff_of_nodup left right).mpr members
  rw [← perm.length_eq, List.length_map, List.countP_map, List.countP_eq_length_filter]
  rfl

theorem LastKinds.length {frames : List StepData} {pairs : List (String × StepKind)}
    (kinds : LastKinds frames pairs) : pairs.length = (frames.map (·.stepId)).dedup.length := by
  have members : ∀ stepId, stepId ∈ pairs.map Prod.fst ↔
      stepId ∈ (frames.map (·.stepId)).dedup := by
    intro stepId
    rw [List.mem_dedup]
    constructor
    · intro present
      obtain ⟨⟨_, kind⟩, member, rfl⟩ := List.mem_map.mp present
      exact stepId_mem ((kinds.mem _ _).mp member)
    · intro present
      obtain ⟨frame, member, rfl⟩ := List.mem_map.mp present
      obtain ⟨kind, last⟩ := lastKind_isSome member
      exact List.mem_map.mpr ⟨_, (kinds.mem _ _).mpr last, rfl⟩
  have perm := (List.perm_ext_iff_of_nodup kinds.nodup (List.nodup_dedup _)).mpr members
  rw [← perm.length_eq, List.length_map]

theorem lastKind_snoc (frames : List StepData) (frame : StepData) (stepId : String) :
    lastKind (frames ++ [frame]) stepId =
      if frame.stepId = stepId then some frame.kind else lastKind frames stepId := by
  unfold lastKind
  rw [List.filter_append]
  by_cases same : frame.stepId = stepId
  · simp [same]
  · simp [same]

theorem lookup_kindById (steps : List StepData) (stepId : String) :
    (steps.foldl (fun dict step => dict.insert step.stepId step.kind)
      (∅ : AList fun _ : String => StepKind)).lookup stepId = lastKind steps stepId := by
  induction steps using List.reverseRecOn with
  | nil => rfl
  | append_singleton steps step ih =>
    rw [List.foldl_append, lastKind_snoc]
    by_cases same : step.stepId = stepId
    · subst same
      simp
    · rw [if_neg same, ← ih]
      exact AList.lookup_insert_ne (Ne.symm same)

theorem lastKinds_dict (steps : List StepData) :
    LastKinds steps ((steps.foldl (fun dict step => dict.insert step.stepId step.kind)
      (∅ : AList fun _ : String => StepKind)).entries.map fun entry => (entry.1, entry.2)) where
  nodup := by
    rw [List.map_map]
    exact AList.keys_nodup _
  mem := by
    intro stepId kind
    rw [← lookup_kindById]
    constructor
    · intro present
      obtain ⟨⟨_, _⟩, entry, same⟩ := List.mem_map.mp present
      cases same
      exact AList.mem_lookup_iff.mpr entry
    · intro found
      exact List.mem_map.mpr ⟨⟨stepId, kind⟩, AList.mem_lookup_iff.mp found, rfl⟩

theorem count_categories (kinds : List StepKind) :
    kinds.countP (categoryOf · = .database) + kinds.countP (categoryOf · = .web) +
        kinds.countP (categoryOf · = .reddit) + kinds.countP (categoryOf · = .visualization) +
        kinds.countP (categoryOf · = .other) = kinds.length := by
  induction kinds with
  | nil => rfl
  | cons kind kinds ih =>
    simp only [List.countP_cons, List.length_cons]
    cases category : categoryOf kind <;> simp <;> omega

theorem endingIn_total (frames : List StepData) :
    (endingIn frames .database).length + (endingIn frames .web).length +
        (endingIn frames .reddit).length + (endingIn frames .visualization).length +
        (endingIn frames .other).length = (frames.map (·.stepId)).dedup.length := by
  have kinds := lastKinds_dict frames
  simp only [← kinds.count]
  rw [count_categories, List.length_map, kinds.length]

theorem deriveReceipt_eq (steps : List StepData) (thinking : List String) :
    deriveReceipt steps thinking = receiptLine fun category => (endingIn steps category).length := by
  unfold deriveReceipt
  split
  case isTrue nothing =>
    have none : steps = [] := by simpa using (Bool.and_eq_true_iff.mp nothing).1
    subst none
    decide
  case isFalse _ =>
    have counts := (lastKinds_dict steps).count
    simp only [List.map_map] at counts
    have total := count_categories ((steps.foldl
      (fun dict step => dict.insert step.stepId step.kind)
      (∅ : AList fun _ : String => StepKind)).entries.map (·.2))
    have same : ∀ category, ∀ p : StepKind → Bool,
        (∀ kind, p kind = decide (categoryOf kind = category)) →
        ((steps.foldl (fun dict step => dict.insert step.stepId step.kind)
          (∅ : AList fun _ : String => StepKind)).entries.map (·.2)).countP p =
          (endingIn steps category).length := by
      intro category p agrees
      rw [← counts category, List.countP_congr (fun kind _ => by rw [agrees kind])]
      rfl
    have db := same .database (fun k => decide (k = .dbTool ∨ k = .sql))
      fun kind => by cases kind <;> rfl
    have web := same .web (fun k => decide (k = .webSearch ∨ k = .eduSearch))
      fun kind => by cases kind <;> rfl
    have reddit := same .reddit (fun k => decide (k = .redditSearch))
      fun kind => by cases kind <;> rfl
    have viz := same .visualization (fun k => decide (k = .viz)) fun kind => by cases kind <;> rfl
    rw [same _ _ fun _ => rfl, same _ _ fun _ => rfl, same _ _ fun _ => rfl, same _ _ fun _ => rfl,
      same _ _ fun _ => rfl] at total
    refine congrArg receiptLine (funext fun category => ?_)
    cases category with
    | database => exact db
    | web => exact web
    | reddit => exact reddit
    | visualization => exact viz
    | other =>
      show _ - _ - _ - _ - _ = _
      rw [db, web, reddit, viz]
      omega

end Counselle.Records
