import QuorumKv.Proofs.Config
import QuorumKv.Proofs.Migration.Canonical
import QuorumKv.Proofs.Migration.Warnings
import QuorumKv.Proofs.Proxy.Reload
import QuorumKv.Proxy.Web

/-! The switch table that the proxy shows, put in place again, is the switch table that it has. -/
namespace QuorumKv.Proxy

open Migration (Plan Table)
open Config (Typing)

/-- A request for the switch table alone. -/
def showTable (headers : List (String × Bytes)) (body : Bytes) : Web.Request :=
  ⟨"GET", "/reload?config=rwswitcher", headers, body⟩

/-- A request for the whole configuration. -/
def showConfig (headers : List (String × Bytes)) (body : Bytes) : Web.Request :=
  ⟨"GET", "/config", headers, body⟩

theorem respond_showTable (d : Option Config.Directory) (headers : List (String × Bytes))
    (body : Bytes) (p : Proxy) :
    p.respond d (showTable headers body) = (.document 200 p.tableDocument, p) := by
  have target : Web.Target.ofText "/reload?config=rwswitcher" =
      ⟨["reload"], [("config", "rwswitcher")]⟩ := by decide +kernel
  rw [respond, Web.serve, showTable]
  simp only [target]
  rfl

theorem respond_showConfig (d : Option Config.Directory) (headers : List (String × Bytes))
    (body : Bytes) (p : Proxy) :
    p.respond d (showConfig headers body) = (.document 200 p.configDocument, p) := by
  have target : Web.Target.ofText "/config" = ⟨["config"], []⟩ := by decide +kernel
  rw [respond, Web.serve, showConfig]
  simp only [target]
  rfl

/-- The configuration that is shown holds the switch table that is shown. -/
theorem switch_configDocument (p : Proxy) :
    Document.field? p.configDocument.fields "switch" = some p.tableDocument := by
  unfold configDocument Config.toDocument
  cases p.config.remote <;> rfl

/-- A table is the table of the plan that it is written as. Whoever takes the switch document that a
proxy shows, alone or in its configuration, and puts that table in place again, by itself or by
reading it from a file, changes nothing. -/
theorem shown_table_reinstalls {plan : Plan} {t : Table} (built : Table.ofPlan plan = .ok t) :
    (∃ again, Table.ofPlan t.toPlan = .ok again ∧ again = t ∧ again.toPlan = t.toPlan) ∧
    ∀ p : Proxy, p.table = t → p.Supplied →
      (∀ d headers body, (p.respond d (showTable headers body)).1 = .document 200 p.tableDocument ∧
        (p.respond d (showConfig headers body)).1 = .document 200 p.configDocument) ∧
      Document.field? p.configDocument.fields "switch" = some p.tableDocument ∧
      ∀ typing ∈ [Typing.strict, Typing.lenient], ∃ shown again,
        Config.readSwitch typing p.tableDocument = some shown ∧
        Table.ofPlan shown = .ok again ∧ (∀ key, again.route key = p.table.route key) ∧
        p.install again = .ok p ∧
        ∀ (files : Config.Directory) (config : Config), files.config = .ok config →
          config.switch = shown → p.reloadSwitch (some files) = .ok p := by
  have itself := Table.ofPlan_toPlan_of_ofPlan built
  refine ⟨⟨t, itself, rfl, rfl⟩, ?_⟩
  rintro p rfl supplied
  refine ⟨?responses, switch_configDocument p, ?documents⟩
  case responses =>
    intro d headers body
    rw [respond_showTable, respond_showConfig]
    exact ⟨rfl, rfl⟩
  case documents =>
    intro typing known
    have plain : typing.IsPlain := by
      obtain rfl | known := List.mem_cons.mp known
      · exact Typing.isPlain_strict
      · obtain rfl := List.mem_singleton.mp known
        exact Typing.isPlain_lenient
    have read := Config.readSwitch_switchDocument plain (Table.ordered_toPlan p.table)
    have installed : p.install p.table = .ok p := by
      rw [install, supplied, Migration.warnings_self, List.append_nil]
      rfl
    refine ⟨p.table.toPlan, p.table, read, itself, fun _ => rfl, installed, ?_⟩
    intro files config found same
    have table : readTable (some files) = .ok p.table := by
      simp only [readTable, found, bind, Except.bind, same, itself]
    rw [reloadSwitch, table]
    exact installed

/-- Two spellings of a stage come back as one list. -/
theorem shown_table_reinstalls_merged :
    let plan : Plan := ⟨"brw", [("BRW_CW", ["b"]), ("br1w1cr0w1", ["aa"]), ("crw", ["c"])]⟩
    let t : Table := ⟨.brw, [("aa", .brwCw), ("b", .brwCw), ("c", .crw)]⟩
    let p : Proxy := ⟨{ plainConfig with remote := some ⟨"http://h:80", 1000⟩ }, t,
      Cluster.ofReplicas (Cluster.quorums 1 1 1) ⟨250, 100⟩ ⟨["a"], []⟩, []⟩
    Table.ofPlan plan = .ok t ∧ Table.ofPlan t.toPlan = .ok t ∧
      ∃ shown again, Config.readSwitch .lenient p.tableDocument = some shown ∧
        Table.ofPlan shown = .ok again ∧ p.install again = .ok p := by
  intro plan t p
  have built : Table.ofPlan plan = .ok t := by
    have perm : t.entries.Perm plan.assignments := by decide +kernel
    have clean : Table.IsClean t.entries := ⟨by decide, by decide⟩
    have arranged : t.entries = Table.arrange plan.assignments := by
      rw [← Table.arrange_eq_of_perm perm clean.nodup, Table.arrange_of_ordered (by decide)]
    have readable : plan.IsReadable := by
      rw [Plan.IsReadable, List.forall_mem_cons, List.forall_mem_cons, List.forall_mem_singleton]
      exact ⟨⟨.brwCw, by decide +kernel⟩, ⟨.brwCw, by decide +kernel⟩, ⟨.crw, by decide +kernel⟩⟩
    exact Table.ofPlan_ok_iff.mpr ⟨by decide +kernel, readable, clean.perm perm, arranged⟩
  obtain ⟨⟨again, itself, rfl, -⟩, shown⟩ := shown_table_reinstalls built
  obtain ⟨-, -, documents⟩ := shown p rfl rfl
  obtain ⟨shown, again, read, table, -, installed, -⟩ := documents .lenient (by simp)
  exact ⟨built, itself, shown, again, read, table, installed⟩

end QuorumKv.Proxy
