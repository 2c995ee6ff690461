import ProbeLoader.Job
import ProbeLoader.Proofs.Attachment.Blocks
import ProbeLoader.Proofs.Attachment.Marks

/-!
# What a run calls, logs, prints and returns

A run tells of its directives in four ways. It makes calls, it logs, it prints lines and it has a
result, and from each of them one can see how many links were kept and which directives failed.
They agree, since every block of a run and its ending do.

A line is what is printed at once, and it is known by its front. No two kinds of lines begin alike.
-/

namespace ProbeLoader

/-- What the kinds of lines begin with that are printed at the end of a run. -/
def endFronts : List String :=
  ["Attachment Summary:", "==================", "Successfully attached: ", "  ✗ line ",
    "eBPF program loaded successfully with ",
    "Probe links have been pinned and will remain active."]

/-- What all kinds of lines begin with that are printed while directives are attached. -/
def lineFronts : List String :=
  ["Attaching probes...", "[", "  ✓ Attached to ", "  ✓ Link pinned at "] ++ endFronts

/-- The lines of a trace that begin with a front. -/
def Trace.linesWith (front : String) (t : Trace) : List String :=
  t.lines.filter fun line => line.startsWith front

def tallyLine (kept total : Nat) : String :=
  s!"Successfully attached: {kept}/{total} probes"

def activeLine (kept : Nat) : String :=
  s!"eBPF program loaded successfully with {kept} active probe(s)"

/-- What is logged about a run as a whole. -/
def verdict (kept total : Nat) : Trace :=
  if kept = 0 then [.log RunReport.noneAttached]
  else if kept < total then [.log RunReport.someFailed]
  else []

/-- What a run does with the module at last. -/
def handOver (kept : Nat) : Trace :=
  if 0 < kept then
    [.call .release, .say "", .say (activeLine kept),
      .say "Probe links have been pinned and will remain active."]
  else [.call .close]

/-- How a run ends that kept some of its links, after the blocks of its directives. -/
def closing (kept total : Nat) (failures : List (Directive × DirectiveError)) : Trace :=
  .say "Attachment Summary:" :: .say "==================" :: .say (tallyLine kept total) ::
    verdict kept total ++ failures.map (fun f => Event.say (RunReport.failureLine f)) ++
      handOver kept

/-- What the events and the report of a run over directives have to do with each other and with
the number of links that the calls of the run kept. -/
structure ChannelsAgree (h : Host) (ds : List Directive) (t : Trace) (r : RunReport) (kept : Nat) :
    Prop where
  outcomes : r.outcomes.map (·.1) = ds
  /-- Each directive has its own block of events, and the ending is about all of them. -/
  course : ∃ blocks : List Trace,
    t = .say "Attaching probes..." :: blocks.flatten ++ closing kept ds.length r.failures ∧
      List.Forall₂ (fun o b => IsBlock h ds.length o.2 o.1.1 o.1.2 b) (r.outcomes.zipIdx 1) blocks
  listed : t.linesWith "  ✗ line " = r.failures.map RunReport.failureLine
  logged : t.recordsAt .error =
    r.failures.flatMap (told h) ++ if kept = 0 then [RunReport.noneAttached] else []
  complete : r.failures = [] ↔ kept = ds.length
  tally : t.linesWith "Successfully attached: " = [tallyLine kept ds.length]
  attached : (t.linesWith "  ✓ Attached to ").length = t.calls.countP (Call.makesLink h)
  pinned : (t.linesWith "  ✓ Link pinned at ").length = kept
  warned : t.recordsAt .warn =
    if 0 < kept ∧ kept < ds.length then [RunReport.someFailed] else []
  denied : RunReport.noneAttached ∈ t.records ↔ kept = 0
  farewell : t.linesWith "eBPF program loaded successfully with " =
    if 0 < kept then [activeLine kept] else []
  result : r.result = if 0 < kept then .ok ⟨ds.length, kept⟩ else .error (.noAttachment ds.length)

/-- Lines that all begin with one of the fronts. -/
structure BeginWith (front : String) (lines : List String) : Prop where
  mem_fronts : front ∈ lineFronts
  exists_rest : ∀ line ∈ lines, ∃ rest, line = front ++ rest

section

variable {mark front : String}

theorem startsWith_front (hmark : mark ∈ lineFronts) (hfront : front ∈ lineFronts)
    (rest : String) : (front ++ rest).startsWith mark = decide (front = mark) := by
  have hapart : ∀ f ∈ lineFronts, ∀ g ∈ lineFronts, f ≠ g → ¬ f.toList <+: g.toList := by
    decide
  rw [Bool.eq_iff_iff, String.startsWith_string_iff, decide_eq_true_iff, String.toList_append]
  constructor
  · intro hprefix
    by_contra hne
    -- Both stand at the beginning of one line, so one of them begins the other.
    rcases List.prefix_or_prefix_of_prefix hprefix (List.prefix_append _ _) with hp | hp
    · exact hapart mark hmark front hfront (Ne.symm hne) hp
    · exact hapart front hfront mark hmark hne hp
  · rintro rfl
    exact List.prefix_append _ _

theorem front_of_mem_endFronts (hmark : mark ∈ endFronts) : mark ∈ lineFronts ∧
    "Attaching probes..." ≠ mark ∧ "[" ≠ mark ∧ "  ✓ Attached to " ≠ mark ∧
    "  ✓ Link pinned at " ≠ mark := by
  revert mark
  decide

theorem filter_empty (hmark : mark ∈ lineFronts) :
    [""].filter (fun line => line.startsWith mark) = [] := by
  have hne : ∀ f ∈ lineFronts, ¬ f.toList <+: "".toList := by decide
  apply List.filter_cons_of_neg
  intro hstarts
  exact hne mark hmark (String.startsWith_string_iff.mp hstarts)

/-- Lines that begin with a front are all found by that front, and none of them by another. -/
theorem BeginWith.filter {lines : List String} (hlines : BeginWith front lines)
    (hmark : mark ∈ lineFronts) :
    lines.filter (fun line => line.startsWith mark) = if front = mark then lines else [] := by
  split
  next heq =>
    apply List.filter_eq_self.mpr
    intro line hline
    obtain ⟨rest, rfl⟩ := hlines.exists_rest line hline
    rw [startsWith_front hmark hlines.mem_fronts, heq]
    exact decide_eq_true rfl
  next hne =>
    apply List.filter_eq_nil_iff.mpr
    intro line hline
    obtain ⟨rest, rfl⟩ := hlines.exists_rest line hline
    rw [startsWith_front hmark hlines.mem_fronts]
    simpa using hne

theorem ne_of_front {line : String} (hfront : ¬ front.toList <+: line.toList) (rest : String) :
    front ++ rest ≠ line := by
  rintro rfl
  apply hfront
  rw [String.toList_append]
  exact List.prefix_append _ _

end

namespace BeginWith

theorem nil {front : String} (hfront : front ∈ lineFronts) : BeginWith front [] :=
  ⟨hfront, fun _ hline => absurd hline List.not_mem_nil⟩

theorem singleton {front line : String} (hfront : front ∈ lineFronts)
    (hline : ∃ rest, line = front ++ rest) : BeginWith front [line] := by
  refine ⟨hfront, ?_⟩
  intro other hother
  obtain rfl := List.mem_singleton.mp hother
  exact hline

theorem self {line : String} (hline : line ∈ lineFronts) : BeginWith line [line] :=
  singleton hline ⟨"", String.append_empty.symm⟩

theorem announcement (number total : Nat) (d : Directive) :
    BeginWith "[" [Attachment.announcement number total d] := by
  apply singleton (by decide)
  unfold Attachment.announcement
  simp only [String.append_assoc]
  exact ⟨_, rfl⟩

theorem attachedLines (hooks : List Hook) :
    BeginWith "  ✓ Attached to " (hooks.map Link.attachedLine) := by
  refine ⟨by decide, ?_⟩
  intro line hline
  obtain ⟨hook, _, rfl⟩ := List.mem_map.mp hline
  exact ⟨_, rfl⟩

theorem pinnedLine (path : Path) : BeginWith "  ✓ Link pinned at " [Link.pinnedLine path] :=
  singleton (by decide) ⟨_, rfl⟩

theorem tallyLine (kept total : Nat) :
    BeginWith "Successfully attached: " [tallyLine kept total] := by
  apply singleton (by decide)
  unfold ProbeLoader.tallyLine
  simp only [String.append_assoc]
  exact ⟨_, rfl⟩

theorem failureLines (failures : List (Directive × DirectiveError)) :
    BeginWith "  ✗ line " (failures.map RunReport.failureLine) := by
  refine ⟨by decide, ?_⟩
  intro line hline
  obtain ⟨f, _, rfl⟩ := List.mem_map.mp hline
  unfold RunReport.failureLine
  simp only [String.append_assoc]
  exact ⟨_, rfl⟩

theorem activeLine (kept : Nat) :
    BeginWith "eBPF program loaded successfully with " [activeLine kept] := by
  apply singleton (by decide)
  unfold ProbeLoader.activeLine
  simp only [String.append_assoc]
  exact ⟨_, rfl⟩

end BeginWith

namespace Trace

theorem recordsAt_map_say {α : Type} (level : Log.Level) (line : α → String) (items : List α) :
    recordsAt level (items.map fun a => .say (line a)) = [] := by
  unfold recordsAt
  rw [records_map_say]
  rfl

variable (mark : String)

theorem linesWith_append (t u : Trace) :
    linesWith mark (t ++ u) = linesWith mark t ++ linesWith mark u := by
  unfold linesWith
  rw [lines_append, List.filter_append]

theorem linesWith_cons_say (line : String) (t : Trace) :
    linesWith mark (.say line :: t) =
      [line].filter (fun line => line.startsWith mark) ++ linesWith mark t := by
  unfold linesWith
  rw [lines_cons_say, ← List.filter_append, List.singleton_append]

end Trace

/-- The lines of a block by their fronts. -/
theorem IsBlock.linesWith {h : Host} {total number : Nat} {d : Directive}
    {failure : Option DirectiveError} {b : Trace} (hb : IsBlock h total number d failure b)
    {mark : String} (hmark : mark ∈ lineFronts) :
    b.linesWith mark =
      (if "[" = mark then [Attachment.announcement number total d] else []) ++
      (if "  ✓ Attached to " = mark then
        (Call.linkHooks h b.calls).map Link.attachedLine else []) ++
      (if "  ✓ Link pinned at " = mark then
        (if failure = none then [Link.pinnedLine d.pinPath] else []) else []) := by
  have hpinned : BeginWith "  ✓ Link pinned at "
      (if failure = none then [Link.pinnedLine d.pinPath] else []) := by
    split
    · exact .pinnedLine d.pinPath
    · exact .nil (by decide)
  have hannounced := BeginWith.announcement number total d
  have hattached := BeginWith.attachedLines (Call.linkHooks h b.calls)
  unfold Trace.linesWith
  rw [hb.lines, ← List.singleton_append, List.filter_append, List.filter_append, List.filter_append,
    hannounced.filter hmark, hattached.filter hmark, hpinned.filter hmark, filter_empty hmark,
    List.append_nil]

@[simp] theorem lines_verdict (kept total : Nat) : (verdict kept total).lines = [] := by
  unfold verdict
  split
  · rfl
  · split <;> rfl

@[simp] theorem calls_verdict (kept total : Nat) : (verdict kept total).calls = [] := by
  unfold verdict
  split
  · rfl
  · split <;> rfl

theorem lines_handOver (kept : Nat) : (handOver kept).lines =
    if 0 < kept then
      [""] ++ [activeLine kept] ++ ["Probe links have been pinned and will remain active."]
    else [] := by
  unfold handOver
  split <;> rfl

@[simp] theorem calls_handOver (kept : Nat) :
    (handOver kept).calls = [if 0 < kept then .release else .close] := by
  unfold handOver
  split <;> rfl

@[simp] theorem recordsAt_handOver (level : Log.Level) (kept : Nat) :
    (handOver kept).recordsAt level = [] := by
  unfold handOver
  split <;> rfl

section

variable (kept total : Nat) (failures : List (Directive × DirectiveError))

theorem lines_closing : (closing kept total failures).lines =
    ["Attachment Summary:"] ++ ["=================="] ++ [tallyLine kept total] ++
      failures.map RunReport.failureLine ++ (handOver kept).lines := by
  simp [closing, Trace.lines_map_say]

theorem calls_closing :
    (closing kept total failures).calls = [if 0 < kept then .release else .close] := by
  simp [closing, Trace.calls_map_say]

theorem recordsAt_closing (level : Log.Level) :
    (closing kept total failures).recordsAt level = (verdict kept total).recordsAt level := by
  simp [closing, Trace.recordsAt_map_say]

end

theorem errors_verdict (kept total : Nat) :
    (verdict kept total).recordsAt .error =
      if kept = 0 then [RunReport.noneAttached] else [] := by
  unfold verdict
  split
  · rfl
  · split <;> rfl

theorem warnings_verdict (kept total : Nat) :
    (verdict kept total).recordsAt .warn =
      if 0 < kept ∧ kept < total then [RunReport.someFailed] else [] := by
  unfold verdict
  by_cases hkept : kept = 0
  · subst hkept
    rfl
  · have hpos := Nat.pos_of_ne_zero hkept
    rw [if_neg hkept]
    by_cases hless : kept < total
    · rw [if_pos hless, if_pos ⟨hpos, hless⟩]
      rfl
    · rw [if_neg hless, if_neg fun hboth => hless hboth.2]
      rfl

/-- The lines of an ending by their fronts. -/
theorem linesWith_closing {mark : String} (hmark : mark ∈ lineFronts) (kept total : Nat)
    (failures : List (Directive × DirectiveError)) :
    (closing kept total failures).linesWith mark =
      (if "Attachment Summary:" = mark then ["Attachment Summary:"] else []) ++
      (if "==================" = mark then ["=================="] else []) ++
      (if "Successfully attached: " = mark then [tallyLine kept total] else []) ++
      (if "  ✗ line " = mark then failures.map RunReport.failureLine else []) ++
      (if 0 < kept then
        (if "eBPF program loaded successfully with " = mark then [activeLine kept] else []) ++
        (if "Probe links have been pinned and will remain active." = mark then
          ["Probe links have been pinned and will remain active."] else [])
      else []) := by
  have htitle := BeginWith.self (show "Attachment Summary:" ∈ lineFronts by decide)
  have hrule := BeginWith.self (show "==================" ∈ lineFronts by decide)
  have hremain := BeginWith.self
    (show "Probe links have been pinned and will remain active." ∈ lineFronts by decide)
  have htally := BeginWith.tallyLine kept total
  have hfailures := BeginWith.failureLines failures
  have hactive := BeginWith.activeLine kept
  unfold Trace.linesWith
  rw [lines_closing, lines_handOver]
  simp only [List.filter_append, htitle.filter hmark, hrule.filter hmark, htally.filter hmark,
    hfailures.filter hmark]
  congr 1
  split
  · simp only [List.filter_append, filter_empty hmark, hactive.filter hmark, hremain.filter hmark,
      List.nil_append]
  · rfl

namespace Attachment

variable {h : Host} {total index : Nat} {os : List (Directive × Option DirectiveError)}
  {blocks : List Trace}

theorem exists_isBlock_of_mem
    (hblocks : List.Forall₂ (fun o b => IsBlock h total o.2 o.1.1 o.1.2 b) (os.zipIdx index) blocks)
    {b : Trace} (hb : b ∈ blocks) : ∃ number d failure, IsBlock h total number d failure b := by
  induction blocks generalizing os index with
  | nil => exact absurd hb List.not_mem_nil
  | cons c blocks ih =>
    cases os with
    | nil => cases hblocks
    | cons o os =>
      obtain ⟨hc, hrest⟩ := List.forall₂_cons.mp hblocks
      rcases List.mem_cons.mp hb with rfl | hb
      · exact ⟨_, _, _, hc⟩
      · exact ih hrest hb

/-- Lines that each block prints as often as it makes a kind of call. -/
theorem length_linesWith_flatten {mark : String} {kind : Call → Bool}
    (hblocks : ∀ b ∈ blocks, (b.linesWith mark).length = b.calls.countP kind) :
    (Trace.linesWith mark blocks.flatten).length = (Trace.calls blocks.flatten).countP kind := by
  induction blocks with
  | nil => rfl
  | cons b blocks ih =>
    have hb := hblocks b List.mem_cons_self
    have hrest := ih fun c hc => hblocks c (List.mem_cons_of_mem b hc)
    rw [List.flatten_cons, Trace.linesWith_append, List.length_append, hb, hrest,
      Trace.calls_append, List.countP_append]

theorem linesWith_flatten_eq_nil {mark : String}
    (hblocks : ∀ b ∈ blocks, b.linesWith mark = []) : Trace.linesWith mark blocks.flatten = [] := by
  induction blocks with
  | nil => rfl
  | cons b blocks ih =>
    rw [List.flatten_cons, Trace.linesWith_append, hblocks b List.mem_cons_self,
      ih fun c hc => hblocks c (List.mem_cons_of_mem b hc), List.append_nil]

/-- What blocks log: their failures are told one after the other, and nothing is warned about. -/
theorem recordsAt_flatten
    (hblocks : List.Forall₂ (fun o b => IsBlock h total o.2 o.1.1 o.1.2 b) (os.zipIdx index)
      blocks) :
    Trace.recordsAt .error blocks.flatten = (RunReport.mk os).failures.flatMap (told h) ∧
      Trace.recordsAt .warn blocks.flatten = [] := by
  induction blocks generalizing os index with
  | nil =>
    cases os with
    | nil => exact ⟨rfl, rfl⟩
    | cons o os => cases hblocks
  | cons b blocks ih =>
    cases os with
    | nil => cases hblocks
    | cons o os =>
      obtain ⟨hb, hrest⟩ := List.forall₂_cons.mp hblocks
      obtain ⟨herrors, hwarnings⟩ := ih hrest
      obtain ⟨d, failure⟩ := o
      constructor
      · rw [List.flatten_cons, Trace.recordsAt_append, hb.errors, herrors]
        cases failure <;> simp [RunReport.failures]
      · rw [List.flatten_cons, Trace.recordsAt_append, hb.warnings, hwarnings, List.append_nil]

end Attachment

theorem noneAttached_not_mem_told (h : Host) (f : Directive × DirectiveError) :
    RunReport.noneAttached ∉ told h f := by
  have hmessage (message : String) (hne : message ≠ "No probes were successfully attached") :
      RunReport.noneAttached ≠ .error message := by
    intro heq
    exact hne (congrArg Log.Record.message heq).symm
  have herror : f.2.message ≠ "No probes were successfully attached" := by
    cases f.2 with
    | programNotFound name names => exact ne_of_front (by decide) _
    | _ =>
      unfold DirectiveError.message
      simp only [String.append_assoc]
      exact ne_of_front (by decide) _
  intro hmem
  unfold told at hmem
  rcases List.mem_append.mp hmem with hmem | hmem
  · rcases List.mem_cons.mp hmem with heq | hmem
    · exact hmessage _ herror heq
    · cases he : f.2 with
      | programNotFound name names =>
        rw [he] at hmem
        rcases List.mem_cons.mp hmem with heq | hmem
        · exact hmessage _ (by decide) heq
        · obtain ⟨available, _, heq⟩ := List.mem_map.mp hmem
          exact hmessage _ (ne_of_front (by decide) _) heq.symm
      | _ =>
        rw [he] at hmem
        exact absurd hmem List.not_mem_nil
  · have hlast := List.mem_singleton.mp hmem
    simp only [String.append_assoc] at hlast
    exact hmessage _ (ne_of_front (by decide) _) hlast

theorem RunReport.failures_eq_nil_iff (r : RunReport) :
    r.failures = [] ↔ r.summary.succeeded = r.summary.total := by
  unfold failures summary
  rw [List.filterMap_eq_nil_iff, List.countP_eq_length]
  apply forall₂_congr
  intro o _
  cases o.2 <;> simp

theorem RunReport.print_eq (r : RunReport) :
    r.print = .say "Attachment Summary:" :: .say "==================" ::
      .say (tallyLine r.summary.succeeded r.summary.total) ::
        verdict r.summary.succeeded r.summary.total ++ r.failureLines := by
  unfold print RunSummary.status verdict
  by_cases hzero : r.summary.succeeded = 0
  · rw [if_pos hzero, if_pos hzero]
    rfl
  · rw [if_neg hzero, if_neg hzero]
    by_cases hless : r.summary.succeeded < r.summary.total
    · rw [if_pos hless, if_pos hless]
      rfl
    · have hall : r.summary.succeeded = r.summary.total :=
        Nat.le_antisymm List.countP_le_length (Nat.le_of_not_lt hless)
      rw [if_neg hless, if_neg hless, failureLines, r.failures_eq_nil_iff.mpr hall]
      rfl

theorem RunReport.print_append_ending (r : RunReport) :
    r.print ++ (if r.summary.isSuccess then .call .release ::
        Attachment.farewell r.summary.succeeded else [.call .close]) =
      closing r.summary.succeeded r.summary.total r.failures := by
  rw [r.print_eq]
  simp only [RunSummary.isSuccess_iff]
  rfl

theorem RunReport.result_eq (r : RunReport) :
    r.result = if 0 < r.summary.succeeded then .ok r.summary
      else .error (.noAttachment r.summary.total) := by
  unfold result
  simp only [RunSummary.isSuccess_iff]

namespace Attachment

/-- A run announces itself, leaves its blocks and ends. -/
theorem exists_course (h : Host) (ds : List Directive) : ∃ blocks : List Trace,
    (attachAll h ds).trace = .say "Attaching probes..." :: blocks.flatten ++
      closing ((attachAll h ds).trace.calls.countP Call.isDisconnect) ds.length
        (attachAll h ds).report.failures ∧
      List.Forall₂ (fun o b => IsBlock h ds.length o.2 o.1.1 o.1.2 b)
        ((attachAll h ds).report.outcomes.zipIdx 1) blocks := by
  obtain ⟨blocks, htrace, hblocks⟩ := exists_blocks (h := h) ds.length 1 .fresh ds
  refine ⟨blocks, ?_, hblocks⟩
  have hending := (attachAll h ds).report.print_append_ending
  rw [total_attachAll] at hending
  rw [countP_isDisconnect_attachAll, ← hending, ← htrace, ← List.append_assoc]
  rfl

theorem linesWith_run {mark : String} (hmark : mark ∈ lineFronts)
    (hbegin : "Attaching probes..." ≠ mark) (blocks : List Trace) (ending : Trace) :
    Trace.linesWith mark (.say "Attaching probes..." :: blocks.flatten ++ ending) =
      Trace.linesWith mark blocks.flatten ++ ending.linesWith mark := by
  have hfirst : ["Attaching probes..."].filter (fun line => line.startsWith mark) = [] := by
    rw [(BeginWith.self (by decide)).filter hmark, if_neg hbegin]
  rw [List.cons_append, Trace.linesWith_cons_say, hfirst, List.nil_append, Trace.linesWith_append]

/-- Lines with a front that no block has are those of the ending. -/
theorem linesWith_attachAll (h : Host) (ds : List Directive) {mark : String}
    (hmark : mark ∈ endFronts) : (attachAll h ds).trace.linesWith mark =
      (closing ((attachAll h ds).trace.calls.countP Call.isDisconnect) ds.length
        (attachAll h ds).report.failures).linesWith mark := by
  obtain ⟨hmark, hbegin, hannounced, hattached, hpinned⟩ := front_of_mem_endFronts hmark
  obtain ⟨blocks, ht, hblocks⟩ := exists_course h ds
  have hnone : Trace.linesWith mark blocks.flatten = [] := by
    apply linesWith_flatten_eq_nil
    intro b hb
    obtain ⟨number, d, failure, hblock⟩ := exists_isBlock_of_mem hblocks hb
    rw [hblock.linesWith hmark, if_neg hannounced, if_neg hattached, if_neg hpinned]
    rfl
  have hlines := congrArg (Trace.linesWith mark) ht
  rwa [linesWith_run hmark hbegin, hnone, List.nil_append] at hlines

/-- Lines that each block prints as often as it makes a kind of call, and that the ending does not
print, are as many as the calls of that kind. -/
theorem length_linesWith_attachAll (h : Host) (ds : List Directive) {mark : String}
    {kind : Call → Bool} (hmark : mark ∈ lineFronts) (hbegin : "Attaching probes..." ≠ mark)
    (hclosing : ∀ kept total failures, (closing kept total failures).linesWith mark = [])
    (hlast : kind .release = false ∧ kind .close = false)
    (hblock : ∀ {total number d failure b}, IsBlock h total number d failure b →
      (b.linesWith mark).length = b.calls.countP kind) :
    ((attachAll h ds).trace.linesWith mark).length = (attachAll h ds).trace.calls.countP kind := by
  obtain ⟨blocks, ht, hblocks⟩ := exists_course h ds
  have hblocksCount : (Trace.linesWith mark blocks.flatten).length =
      (Trace.calls blocks.flatten).countP kind := by
    apply length_linesWith_flatten
    intro b hb
    obtain ⟨number, d, failure, hb⟩ := exists_isBlock_of_mem hblocks hb
    exact hblock hb
  have hlines := congrArg (Trace.linesWith mark) ht
  rw [linesWith_run hmark hbegin, hclosing, List.append_nil] at hlines
  have hcalls := congrArg Trace.calls ht
  rw [Trace.calls_append, Trace.calls_cons_say, calls_closing] at hcalls
  rw [hlines, hblocksCount, hcalls, List.countP_append]
  split <;> simp [hlast]

/-- What a run calls, logs, prints and returns tells of the same links that were kept and of the
same directives that failed. -/
theorem attachAll_channelsAgree (h : Host) (ds : List Directive) :
    ChannelsAgree h ds (attachAll h ds).trace (attachAll h ds).report
      ((attachAll h ds).trace.calls.countP Call.isDisconnect) := by
  obtain ⟨blocks, ht, hblocks⟩ := exists_course h ds
  have hkept := countP_isDisconnect_attachAll h ds
  have htotal := total_attachAll h ds
  obtain ⟨herrors, hwarnings⟩ := recordsAt_flatten hblocks
  have hrecords (level : Log.Level) := congrArg (Trace.recordsAt level) ht
  simp only [Trace.recordsAt_append, Trace.recordsAt_cons_say] at hrecords
  refine ⟨map_fst_outcomes_attachAll h ds, ⟨blocks, ht, hblocks⟩, ?_, ?_, ?_, ?_, ?_, ?_, ?_, ?_,
    ?_, ?_⟩
  · rw [linesWith_attachAll h ds (by decide), linesWith_closing (by decide)]
    simp
  · rw [hrecords, herrors, recordsAt_closing, errors_verdict]
  · rw [RunReport.failures_eq_nil_iff, hkept, htotal]
  · rw [linesWith_attachAll h ds (by decide), linesWith_closing (by decide)]
    simp
  · apply length_linesWith_attachAll h ds (by decide) (by decide) _ ⟨rfl, rfl⟩
    · intro total number d failure b hb
      rw [hb.linesWith (by decide), ← Call.length_linkHooks]
      simp
    · intro kept total failures
      rw [linesWith_closing (by decide)]
      simp
  · apply length_linesWith_attachAll h ds (by decide) (by decide) _ ⟨rfl, rfl⟩
    · intro total number d failure b hb
      rw [hb.linesWith (by decide), hb.disconnects]
      cases failure <;> simp
    · intro kept total failures
      rw [linesWith_closing (by decide)]
      simp
  · rw [hrecords, hwarnings, recordsAt_closing, warnings_verdict, List.nil_append]
  · have hlevel : RunReport.noneAttached.level = .error := rfl
    rw [← Trace.mem_recordsAt_iff hlevel, hrecords, herrors, recordsAt_closing, errors_verdict,
      List.mem_append]
    -- What is told of a single failure never reads like the verdict on the run.
    have htold : RunReport.noneAttached ∉ (attachAll h ds).report.failures.flatMap (told h) := by
      intro hmem
      obtain ⟨f, _, hf⟩ := List.mem_flatMap.mp hmem
      exact noneAttached_not_mem_told h f hf
    rw [or_iff_right htold]
    constructor
    · intro hmem
      by_contra hpos
      rw [if_neg hpos] at hmem
      exact absurd hmem List.not_mem_nil
    · intro hzero
      rw [if_pos hzero]
      exact List.mem_singleton_self _
  · rw [linesWith_attachAll h ds (by decide), linesWith_closing (by decide)]
    simp
  · rw [RunReport.result_eq, hkept, ← htotal]

end Attachment

end ProbeLoader
