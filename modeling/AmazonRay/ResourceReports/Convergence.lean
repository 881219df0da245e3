import AmazonRay.ResourceReports.Reports

/-! Reports are complete, so a view that has applied the last one has the resources of the last poll. -/
namespace AmazonRay.ResourceReports
open Program List Table PredefinedResource

section

variable {node view : NodeResources} {name : String}

variable {p : PredefinedResource} {usage : LocalUsage} (l : List (Σ _ : String, ResourceCapacity)) (data : ResourcesData)

lemma ofLabel_label (p : PredefinedResource) : ofLabel p.label = some p := by
  cases p <;> decide

lemma eq_label_of_ofLabel (h : ofLabel name = some p) : name = p.label := by
  unfold ofLabel at h
  repeat' split at h
  all_goals cases h
  all_goals assumption

lemma mem_all (p : PredefinedResource) : p ∈ PredefinedResource.all := by
  cases p <;> decide

lemma nodupKeys_capacities (h : node.WellNamed) : node.capacities.NodupKeys := by
  have hkeys : node.capacities.keys = all.map label ++ node.custom.keys := by
    rw [NodeResources.capacities, keys, map_append, map_map]
    rfl
  rw [List.NodupKeys, hkeys, nodup_append]
  refine ⟨by decide, node.custom.keys_nodup, fun x hx y hy hxy => ?_⟩
  obtain ⟨p, -, rfl⟩ := mem_map.mp hx
  have hnone := h y hy
  rw [← hxy, ofLabel_label] at hnone
  cases hnone

/-- The maps of a report before the flags are set, if the last report was empty. -/
structure Lists (node : NodeResources) (data : ResourcesData) : Prop where
  total : ∀ e ∈ node.capacities, 0 < e.2.total → data.resourcesTotal.lookup e.1 = some (toDouble e.2.total)
  available : ∀ e ∈ node.capacities, data.resourcesAvailable.lookup e.1 =
    if 0 < e.2.available then some (toDouble e.2.available) else none
  changed : (∃ e ∈ node.capacities, 0 < e.2.available) → data.resourcesAvailableChanged = true

lemma capacity_empty (name : String) : NodeResources.capacity {} name = {} := by
  unfold NodeResources.capacity
  cases ofLabel name <;> rfl

lemma resourcesTotal_foldl : (l.foldl (reportCapacity {}) data).resourcesTotal = l.foldl (fun t e =>
      if e.2.total ≠ 0 then t.insert e.1 (toDouble e.2.total) else t) data.resourcesTotal := by
  refine (foldl_hom ResourcesData.resourcesTotal fun data e => ?_).symm
  simp only [reportCapacity, capacity_empty]
  split <;> split <;> rfl

lemma resourcesAvailable_foldl : (l.foldl (reportCapacity {}) data).resourcesAvailable = l.foldl (fun t e =>
      if e.2.available ≠ 0 ∧ 0 < e.2.available then t.insert e.1 (toDouble e.2.available) else t)
        data.resourcesAvailable := by
  refine (foldl_hom ResourcesData.resourcesAvailable fun data e => ?_).symm
  simp only [reportCapacity, capacity_empty]
  split <;> split <;> rfl

lemma resourcesAvailableChanged_foldl (h : data.resourcesAvailableChanged = true ∨ ∃ e ∈ l, 0 < e.2.available) :
    (l.foldl (reportCapacity {}) data).resourcesAvailableChanged = true := by
  induction l generalizing data with
  | nil => exact h.resolve_right fun ⟨_, he, _⟩ => nomatch he
  | cons e l ih =>
    apply ih _
    have hstep : (reportCapacity {} data e).resourcesAvailableChanged =
        (data.resourcesAvailableChanged || decide (0 < e.2.available)) := by
      have hcond : e.2.available ≠ 0 ∧ 0 < e.2.available ↔ 0 < e.2.available :=
        and_iff_right_of_imp fun hpos => hpos.ne'
      simp only [reportCapacity, capacity_empty, hcond]
      split <;> split <;> simp [*]
    rw [hstep]
    rcases h with h | ⟨x, hx, hpos⟩
    · exact .inl (by rw [h, Bool.true_or])
    · rcases mem_cons.mp hx with rfl | hx
      · exact .inl (by simp [hpos])
      · exact .inr ⟨x, hx, hpos⟩

lemma lists_capacities (h : node.WellNamed) : Lists node (node.capacities.foldl (reportCapacity {}) {}) := by
  have hkeys := nodupKeys_capacities h
  refine ⟨fun e he hpos => ?_, fun e he => ?_, fun hpos => resourcesAvailableChanged_foldl _ _ (.inr hpos)⟩
  · rw [resourcesTotal_foldl, lookup_foldl (g := fun _ c t => if c.total ≠ 0 then some (toDouble c.total) else t)
      (fun t e k hk => by split; exacts [AList.lookup_insert_ne hk, rfl])
      (fun t e => by split; exacts [AList.lookup_insert _, rfl]) _ hkeys, (mem_dlookup_iff hkeys).mpr he]
    exact if_pos hpos.ne'
  · rw [resourcesAvailable_foldl, lookup_foldl
      (g := fun _ c t => if c.available ≠ 0 ∧ 0 < c.available then some (toDouble c.available) else t)
      (fun t e k hk => by split; exacts [AList.lookup_insert_ne hk, rfl])
      (fun t e => by split; exacts [AList.lookup_insert _, rfl]) _ hkeys, (mem_dlookup_iff hkeys).mpr he]
    exact if_congr (and_iff_right_of_imp fun hpos => hpos.ne') rfl rfl

lemma fillResourceUsage_lists (light : Bool) (usage : LocalUsage) (h : node.WellNamed) :
    Lists node (fillResourceUsage light usage node {}) := by
  have hpulls : Lists node (reportPulls usage {} (node.capacities.foldl (reportCapacity {}) {})) := by
    have hlists := lists_capacities h
    unfold reportPulls
    cases usage.pullManagerAtCapacity with
    | none => exact hlists
    | some =>
      dsimp only
      split
      · exact ⟨hlists.total, hlists.available, fun _ => rfl⟩
      · exact hlists
  cases light with
  | true => exact hpulls
  | false => exact ⟨hpulls.total, hpulls.available, fun _ => rfl⟩

lemma fillResourceUsage_changed {light : Bool} (h : node.WellNamed)
    (hflag : (∃ e ∈ node.capacities, 0 < e.2.available) ∨ usage.pullManagerAtCapacity = some true ∨ light = false) :
    (fillResourceUsage light usage node {}).resourcesAvailableChanged = true := by
  rcases hflag with hpos | hpulls | rfl
  · exact (fillResourceUsage_lists light usage h).changed hpos
  · unfold fillResourceUsage reportPulls
    rw [hpulls]
    cases light <;> rfl
  · rfl

structure Complete (node : NodeResources) (data : ResourcesData) : Prop where
  changed : data.resourcesAvailableChanged = true
  total : ∀ e ∈ node.capacities, 0 < e.2.total →
    ∃ d, data.resourcesTotal.lookup e.1 = some d ∧ fixedPoint d = e.2.total
  available : ∀ e ∈ node.capacities, 0 < e.2.total →
    (data.resourcesAvailable.lookup e.1).elim 0 fixedPoint = max 0 e.2.available

lemma wellNamed_currentResources (usage : LocalUsage) (h : node.WellNamed) :
    (currentResources usage node).WellNamed := by
  unfold currentResources
  split
  · exact h
  · exact h

lemma complete_fillResourceReport {cfg : Config} {s : State} (h : s.resources.WellNamed)
    (hreports : (ReportOp.poll usage).ReportsAll cfg s) :
    Complete (currentResources usage s.resources) (fillResourceReport cfg.light usage s.resources) := by
  have hnamed := wellNamed_currentResources usage h
  have hlists := fillResourceUsage_lists cfg.light usage hnamed
  obtain ⟨hflag, hexact⟩ := hreports
  refine ⟨fillResourceUsage_changed hnamed hflag, fun e he hpos => ?_, fun e he hpos => ?_⟩
  · exact ⟨_, hlists.total e he hpos, (hexact e he hpos).1⟩
  · refine (congrArg (fun d => Option.elim d 0 fixedPoint) (hlists.available e he)).trans ?_
    by_cases havailable : 0 < e.2.available
    · rw [if_pos havailable, Option.elim_some, (hexact e he hpos).2 havailable]
      omega
    · rw [if_neg havailable, Option.elim_none]
      omega

end

section

variable {node view : NodeResources} {name : String} {data : ResourcesData} {available total : Doubles} {d : ℚ}

def messageCapacity (available : Doubles) (name : String) (total : ℚ) : ResourceCapacity :=
  { total := fixedPoint total, available := (available.lookup name).elim 0 fixedPoint }

lemma predefined_resourceMap (h : total.lookup p.label = some d) :
    (resourceMapToNodeResources total available).predefined p = messageCapacity available p.label d := by
  have hother : ∀ node e, p.label ≠ e.1 → (addResource available node e).predefined p = node.predefined p := by
    intro node e he
    unfold addResource
    cases hlabel : ofLabel e.1 with
    | none => rfl
    | some =>
      refine Function.update_of_ne ?_ _ _
      rintro rfl
      exact he (eq_label_of_ofLabel hlabel).symm
  have hown node d : (addResource available node ⟨p.label, d⟩).predefined p =
      messageCapacity available p.label d := by
    unfold addResource
    rw [ofLabel_label]
    exact Function.update_self _ _ _
  refine (view_foldl (v := fun node : NodeResources => node.predefined p)
    (g := fun d _ => messageCapacity available p.label d) hother hown _ total.nodupKeys _).trans ?_
  exact congrArg (fun d => Option.elim d _ (messageCapacity available p.label)) h

lemma custom_resourceMap (hname : ofLabel name = none) (h : total.lookup name = some d) :
    (resourceMapToNodeResources total available).custom.lookup name = some (messageCapacity available name d) := by
  have hother : ∀ node e, name ≠ e.1 → (addResource available node e).custom.lookup name = node.custom.lookup name := by
    intro node e he
    unfold addResource
    cases ofLabel e.1 with
    | none => exact AList.lookup_insert_ne he
    | some => rfl
  have hown node d : (addResource available node ⟨name, d⟩).custom.lookup name =
      some (messageCapacity available name d) := by
    unfold addResource
    rw [hname]
    exact AList.lookup_insert _
  refine (view_foldl (v := fun node : NodeResources => node.custom.lookup name)
    (g := fun d _ => some (messageCapacity available name d)) hother hown _ total.nodupKeys _).trans ?_
  exact congrArg (fun d => Option.elim d _ fun d => some (messageCapacity available name d)) h

lemma lookup_updateCustom {t custom : AList fun _ : String => ResourceCapacity} {c : ResourceCapacity}
    (f : ResourceCapacity → ResourceCapacity → ResourceCapacity) (h : t.lookup name = some c) :
    (t.entries.foldl (fun custom e => custom.insert e.1 (f ((custom.lookup e.1).getD {}) e.2)) custom).lookup name =
      some (f ((custom.lookup name).getD {}) c) := by
  rw [lookup_foldl (g := fun _ c old => some (f (old.getD {}) c))
    (fun t e k hk => AList.lookup_insert_ne hk) (fun t e => AList.lookup_insert _) t.entries t.nodupKeys]
  exact congrArg (fun d => Option.elim d _ fun c => some (f _ c)) h

lemma capacity_updateNode (hchanged : data.resourcesAvailableChanged = true)
    (h : data.resourcesTotal.lookup name = some d) :
    (updateNode view data).capacity name = messageCapacity data.resourcesAvailable name d := by
  have htotal : data.resourcesTotal.entries ≠ [] := by
    intro hnil
    have hmem := mem_entries_iff.mpr h
    rw [hnil] at hmem
    cases hmem
  simp only [updateNode, if_pos htotal, if_pos hchanged]
  unfold NodeResources.capacity updateAvailable updateTotals
  cases hname : ofLabel name with
  | some =>
    obtain rfl := eq_label_of_ofLabel hname
    dsimp only
    rw [predefined_resourceMap h]
  | none =>
    have hcustom : (resourceMapToNodeResources data.resourcesTotal data.resourcesAvailable).custom.lookup name =
        some (messageCapacity data.resourcesAvailable name d) := custom_resourceMap hname h
    rw [lookup_updateCustom (fun old c => { old with available := c.available }) hcustom,
      lookup_updateCustom (fun old c => { old with total := c.total }) hcustom]
    rfl

lemma Complete.converged (h : Complete node data) : Converged node (updateNode view data) := by
  intro e he hpos
  obtain ⟨d, hlookup, hd⟩ := h.total e he hpos
  rw [capacity_updateNode h.changed hlookup, messageCapacity, hd, h.available e he hpos]

end

section

variable {cfg : Config} {s : State} {node : NodeResources} {data : ResourcesData}

def ownReports (cfg : Config) (batch : List (Σ _ : NodeID, ResourcesData)) : List ResourcesData :=
  (batch.filter fun e => e.1 = cfg.reporter).map Sigma.snd

lemma applyBatch_eq (view : NodeResources) (batch : List (Σ _ : NodeID, ResourcesData)) :
    applyBatch cfg view batch = (ownReports cfg batch).foldl updateNode view := by
  unfold applyBatch ownReports
  induction batch generalizing view with
  | nil => rfl
  | cons e batch ih =>
    rw [foldl_cons, ih]
    by_cases he : e.1 = cfg.reporter
    · rw [if_pos he, filter_cons_of_pos (by simpa using he)]
      rfl
    · rw [if_neg he, filter_cons_of_neg (by simpa using he)]

lemma ownReports_eq {batch : List (Σ _ : NodeID, ResourcesData)} (h : batch.NodupKeys) :
    ownReports cfg batch = (batch.dlookup cfg.reporter).toList := by
  unfold ownReports
  induction batch with
  | nil => rfl
  | cons e batch ih =>
    obtain ⟨hnot, h⟩ := nodupKeys_cons.mp h
    by_cases he : cfg.reporter = e.1
    · have hlater := ih h
      rw [he, dlookup_eq_none.mpr hnot] at hlater
      rw [filter_cons_of_pos (by simpa using he.symm), map_cons, he, hlater, dlookup_cons_eq]
      rfl
    · rw [filter_cons_of_neg (by simpa using Ne.symm he), ih h, dlookup_cons_ne _ _ he]

lemma outstanding_eq (s : State) :
    s.outstanding cfg = ownReports cfg s.channel.flatten ++ (s.buffer.lookup cfg.reporter).toList := rfl

lemma ownReports_append (l l' : List (Σ _ : NodeID, ResourcesData)) :
    ownReports cfg (l ++ l') = ownReports cfg l ++ ownReports cfg l' := by
  rw [ownReports, filter_append, map_append]
  rfl

lemma outstanding_broadcast {order : List (Σ _ : NodeID, ResourcesData)}
    (h : (ReportOp.broadcast order).Enabled cfg s) :
    ((ReportOp.broadcast order).apply cfg s).outstanding cfg = s.outstanding cfg := by
  let batch := order.take (broadcastCount cfg.maxBatch s.changes order.length)
  have hperm : order.Perm s.buffer.entries := h
  have horder : order.NodupKeys := (perm_nodupKeys hperm).mpr s.buffer.nodupKeys
  have hbatch : batch.NodupKeys := List.NodupKeys.sublist (take_sublist _ _) horder
  have hlookup := lookup_foldl (g := fun _ _ _ => none) (fun _ _ _ hk => AList.lookup_erase_ne hk)
      (fun t e => AList.lookup_erase e.1 t) batch hbatch s.buffer cfg.reporter
  rw [outstanding_eq, outstanding_eq]
  show ownReports cfg (s.channel ++ [batch]).flatten ++
    ((batch.foldl (fun buffer e => buffer.erase e.1) s.buffer).lookup cfg.reporter).toList = _
  rw [flatten_append, flatten_singleton, ownReports_append, ownReports_eq hbatch, hlookup, append_assoc]
  congr 1
  cases hdata : batch.dlookup cfg.reporter with
  | none => rfl
  | some data =>
    have hmem := (mem_dlookup_iff hbatch).mp hdata
    rw [mem_entries_iff.mp (hperm.subset (mem_of_mem_take hmem))]
    rfl

/-- The last poll is delivered, or its report is the last that is outstanding. -/
structure Delivers (cfg : Config) (s : State) : Prop where
  named : s.resources.WellNamed
  report : ∀ node, s.polled = some node → (∃ e ∈ node.capacities, 0 < e.2.total) →
    (∃ data, (s.outstanding cfg).getLast? = some data ∧ Complete node data) ∨
      s.outstanding cfg = [] ∧ Converged node s.view

lemma Delivers.congr {t : State} (h : Delivers cfg s) (hnamed : t.resources.WellNamed) (hpolled : t.polled = s.polled)
    (houtstanding : t.outstanding cfg = s.outstanding cfg) (hview : t.view = s.view) : Delivers cfg t := by
  refine ⟨hnamed, ?_⟩
  rw [hpolled, houtstanding, hview]
  exact h.report

lemma delivers_poll (h : Delivers cfg s)
    (hreports : (ReportOp.poll usage).ReportsAll cfg s) : Delivers cfg ((ReportOp.poll usage).apply cfg s) := by
  refine ⟨h.named, fun node hnode hresource => .inl ?_⟩
  cases hnode
  have hcomplete := complete_fillResourceReport h.named hreports
  refine ⟨_, ?_, hcomplete⟩
  rw [outstanding_eq]
  show (ownReports cfg s.channel.flatten ++ ((updateFromResourceReport s.buffer cfg.reporter
    (fillResourceReport cfg.light usage s.resources)).lookup cfg.reporter).toList).getLast? = _
  rw [updateFromResourceReport, if_pos (.inr (.inr (.inl hcomplete.changed))), AList.lookup_insert]
  exact getLast?_concat

lemma converged_foldl {view : NodeResources} {reports : List ResourcesData}
    (hlast : reports.getLast? = some data) (h : Complete node data) :
    Converged node (reports.foldl updateNode view) := by
  obtain ⟨before, rfl⟩ := getLast?_eq_some_iff.mp hlast
  rw [foldl_append]
  exact h.converged

lemma delivers_receive (h : Delivers cfg s) : Delivers cfg (ReportOp.receive.apply cfg s) := by
  unfold ReportOp.apply
  cases hchannel : s.channel with
  | nil => exact h
  | cons batch rest =>
    let t : State := { s with channel := rest, view := applyBatch cfg s.view batch }
    have houtstanding : s.outstanding cfg = ownReports cfg batch ++ t.outstanding cfg := by
      rw [outstanding_eq, outstanding_eq, hchannel, flatten_cons, ownReports_append, append_assoc]
    refine ⟨h.named, fun node hnode hresource => ?_⟩
    have hreport := h.report node hnode hresource
    rw [houtstanding] at hreport
    show (∃ data, (t.outstanding cfg).getLast? = some data ∧ Complete node data) ∨
      t.outstanding cfg = [] ∧ Converged node (applyBatch cfg s.view batch)
    rw [applyBatch_eq]
    rcases hreport with ⟨data, hlast, hcomplete⟩ | ⟨hnil, hconverged⟩
    · by_cases hrest : t.outstanding cfg = []
      · rw [hrest, append_nil] at hlast
        exact .inr ⟨hrest, converged_foldl hlast hcomplete⟩
      · rw [getLast?_append_of_ne_nil _ hrest] at hlast
        exact .inl ⟨data, hlast, hcomplete⟩
    · obtain ⟨hbatch, hrest⟩ := append_eq_nil_iff.mp hnil
      rw [hbatch]
      exact .inr ⟨hrest, hconverged⟩

lemma delivers_apply {op : ReportOp} (henabled : op.Enabled cfg s) (hreports : op.ReportsAll cfg s)
    (h : Delivers cfg s) : Delivers cfg (op.apply cfg s) := by
  cases op with
  | changeResources => exact h.congr henabled rfl rfl rfl
  | poll => exact delivers_poll h hreports
  | otherReport nodeId data =>
    refine h.congr h.named rfl ?_ rfl
    rw [outstanding_eq, outstanding_eq]
    congr 2
    show (updateFromResourceReport s.buffer nodeId data).lookup cfg.reporter = s.buffer.lookup cfg.reporter
    unfold updateFromResourceReport
    split
    · exact AList.lookup_insert_ne henabled.symm
    · rfl
  | otherChange => exact h.congr h.named rfl rfl rfl
  | broadcast => exact h.congr h.named rfl (outstanding_broadcast henabled) rfl
  | receive => exact delivers_receive h

/-- Once all reports of the raylet were broadcast and applied, the view has the resources
of its last poll. -/
theorem view_converges {resources view : NodeResources} (hnamed : resources.WellNamed)
    (h : Reaches (ReportOp.run cfg) (fun op s => op.Enabled cfg s ∧ op.ReportsAll cfg s) { resources, view } s)
    (hpolled : s.polled = some node) (happlied : s.outstanding cfg = []) : Converged node s.view := by
  have hdelivers : Delivers cfg s := by
    refine Reaches.invariant (E := fun _ _ => True) ?_ (fun op s ha hs => ?_) h
    · exact ⟨hnamed, nofun⟩
    · refine .update ?_
      rintro t rfl
      exact delivers_apply ha.1 ha.2 hs
  intro e he hpos
  rcases hdelivers.report node hpolled ⟨e, he, hpos⟩ with ⟨data, hlast, -⟩ | ⟨-, hconverged⟩
  · rw [happlied] at hlast
    cases hlast
  · exact hconverged e he hpos

end

def exampleConfig : Config := { reporter := 1, maxBatch := 100 }

def nodeWith (p : PredefinedResource) (total available : ℤ) : NodeResources :=
  { predefined := Function.update (fun _ => {}) p { total, available } }

def deliver (node : NodeResources) : List ReportOp :=
  [.changeResources node, .poll {}, .broadcast [⟨1, fillResourceReport true {} node⟩], .receive]

def deliveredView (p : PredefinedResource) (s : State) : Option (ℤ × ℤ) × List ResourcesData × ℤ :=
  (s.polled.map fun node => ((node.predefined p).total, (node.predefined p).available), s.outstanding exampleConfig,
    (s.view.predefined p).available)

lemma not_converged_of_deliveredView {s : State} {total available v : ℤ}
    (h : deliveredView p s = (some (total, available), [], v)) (htotal : 0 < total) (hv : v ≠ max 0 available) :
    ∃ node, s.polled = some node ∧ s.outstanding exampleConfig = [] ∧ ¬ Converged node s.view := by
  obtain ⟨node, hnode, hcapacity⟩ := Option.map_eq_some_iff.mp (congrArg Prod.fst h)
  obtain ⟨rfl, rfl⟩ := Prod.mk.inj hcapacity
  refine ⟨node, hnode, congrArg (fun v => v.2.1) h, fun hconverged => hv ?_⟩
  have hmem : (⟨p.label, node.predefined p⟩ : Σ _ : String, ResourceCapacity) ∈ node.capacities :=
    mem_append_left _ (mem_map.mpr ⟨p, mem_all p, rfl⟩)
  have hview := hconverged _ hmem htotal
  rw [NodeResources.capacity, ofLabel_label] at hview
  exact (congrArg (fun v => v.2.2) h).symm.trans (congrArg ResourceCapacity.available hview)

/-- When the last CPU is taken, nothing positive is left to report, and the view keeps
all four. -/
theorem busy_node_not_converged :
    ∃ s node, Reaches (ReportOp.run exampleConfig) (fun op s => op.Enabled exampleConfig s)
        { resources := {}, view := {} } s ∧
      s.polled = some node ∧ s.outstanding exampleConfig = [] ∧ ¬ Converged node s.view := by
  have hrun : (runAll (ReportOp.run exampleConfig) (fun op s => op.Enabled exampleConfig s)
      (deliver (nodeWith .cpu 40000 40000) ++ deliver (nodeWith .cpu 40000 0)) { resources := {}, view := {} }).map
        (deliveredView .cpu) = some (some (40000, 0), [], 40000) := by decide +kernel
  obtain ⟨s, hs, hv⟩ := exists_reaches hrun
  obtain ⟨node, hnode⟩ := not_converged_of_deliveredView hv (by decide) (by decide)
  exact ⟨s, node, hs, hnode⟩

/-- One of four CPUs is left. -/
theorem view_converges_one_left :
    ∃ s node, Reaches (ReportOp.run exampleConfig)
        (fun op s => op.Enabled exampleConfig s ∧ op.ReportsAll exampleConfig s) { resources := {}, view := {} } s ∧
      s.polled = some node ∧ Converged node s.view ∧ deliveredView .cpu s = (some (40000, 10000), [], 10000) := by
  have hrun : (runAll (ReportOp.run exampleConfig)
      (fun op s => op.Enabled exampleConfig s ∧ op.ReportsAll exampleConfig s)
      (deliver (nodeWith .cpu 40000 40000) ++ deliver (nodeWith .cpu 40000 10000)) { resources := {}, view := {} }).map
        (deliveredView .cpu) = some (some (40000, 10000), [], 10000) := by decide +kernel
  obtain ⟨s, hs, hv⟩ := exists_reaches hrun
  obtain ⟨node, hnode, -⟩ := Option.map_eq_some_iff.mp (congrArg Prod.fst hv)
  have happlied : s.outstanding exampleConfig = [] := congrArg (fun v => v.2.1) hv
  exact ⟨s, node, hs, hnode, view_converges (by decide) hs hnode happlied, hv⟩

end AmazonRay.ResourceReports
