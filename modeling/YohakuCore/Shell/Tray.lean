import Mathlib.Data.List.Basic
import YohakuCore.Framework.Execution
import YohakuCore.Framework.PrefixCode
import YohakuCore.Model

/-!
# The tray menu

One rebuild at a time; what asks for one meanwhile is answered by one more. Any step of a rebuild
may throw.
-/

namespace YohakuCore

open Framework

/-- What the tray reads of the summary. -/
structure ConnectionSummary where
  liveDeskEnabled : Bool
  deriving DecidableEq

structure CoreStateSnapshot where
  runtimeState : RuntimeState
  connection : Option ConnectionSummary
  deriving DecidableEq

structure AppStore where
  connected : Bool
  snapshot : Option CoreStateSnapshot
  deriving DecidableEq

def AppStore.connection (store : AppStore) : Option ConnectionSummary :=
  store.snapshot.bind (·.connection)

def RuntimeState.asStr : RuntimeState → String
  | .notPaired => "notPaired"
  | .disabled => "disabled"
  | .connecting => "connecting"
  | .active => "active"
  | .degraded => "degraded"
  | .suspended => "suspended"
  | .updateRequired => "updateRequired"
  | .serverFeatureUnavailable => "serverFeatureUnavailable"

def runtimeStateText : RuntimeState → String
  | .notPaired => "未配对"
  | .disabled => "已暂停"
  | .connecting => "连接中"
  | .active => "分享中"
  | .degraded => "已降级"
  | .suspended => "已挂起"
  | .updateRequired => "需要更新客户端"
  | .serverFeatureUnavailable => "服务器不支持 Live Desk"

/-- The parts of the fingerprint. -/
def trayKeyParts (store : AppStore) : String × String × String :=
  (if store.connected then "1" else "0",
    (store.snapshot.map (·.runtimeState.asStr)).getD "none",
    (store.connection.map fun connection =>
      if connection.liveDeskEnabled then "true" else "false").getD "none")

def trayKey (store : AppStore) : String :=
  let (connected, runtimeState, liveDeskEnabled) := trayKeyParts store
  connected ++ "|" ++ runtimeState ++ "|" ++ liveDeskEnabled

inductive TrayItem where
  | status (text : String)
  | separator
  | openSettings
  | pauseSharing
  | resumeSharing
  | autostart (checked : Bool)
  | quit
  deriving DecidableEq

def statusText (store : AppStore) : String :=
  match store with
  | ⟨true, some snapshot⟩ => "状态：" ++ runtimeStateText snapshot.runtimeState
  | _ => "状态：核心服务未连接"

/-- The menu that `build_menu` makes of the store and the autostart entry it has read. -/
def menuItems (store : AppStore) (autostartOn : Bool) : List TrayItem :=
  [.status (statusText store), .separator, .openSettings] ++
    (store.connection.map fun connection =>
      if connection.liveDeskEnabled then TrayItem.pauseSharing else .resumeSharing).toList ++
    [.autostart autostartOn, .separator, .quit]

theorem bar_notMem_parts (store : AppStore) :
    '|' ∉ (trayKeyParts store).1.toList ∧ '|' ∉ (trayKeyParts store).2.1.toList := by
  obtain ⟨connected, _ | ⟨runtimeState, connection⟩⟩ := store
  · cases connected <;> decide
  · constructor
    · cases connected <;> simp [trayKeyParts]
    · cases runtimeState <;> simp [trayKeyParts, RuntimeState.asStr]

theorem trayKeyParts_eq {store store' : AppStore} (h : trayKey store = trayKey store') :
    trayKeyParts store = trayKeyParts store' := by
  obtain ⟨hfirst, hsecond⟩ := bar_notMem_parts store
  obtain ⟨hfirst', hsecond'⟩ := bar_notMem_parts store'
  have hlist := congrArg String.toList h
  simp only [trayKey, String.toList_append, List.append_assoc] at hlist
  obtain ⟨hone, hrest⟩ := append_sep_inj hfirst hfirst' hlist
  obtain ⟨htwo, hthree⟩ := append_sep_inj hsecond hsecond' hrest
  exact Prod.ext (String.toList_inj.mp hone)
    (Prod.ext (String.toList_inj.mp htwo) (String.toList_inj.mp hthree))

theorem asStr_inj {state state' : RuntimeState} (h : state.asStr = state'.asStr) :
    state = state' := by
  revert h
  cases state <;> cases state' <;> simp [RuntimeState.asStr]

theorem asStr_ne_none (state : RuntimeState) : state.asStr ≠ "none" := by
  cases state <;> simp [RuntimeState.asStr]

/-- Stores with the same fingerprint have the same menu. -/
theorem menuItems_of_trayKey {store store' : AppStore} (h : trayKey store = trayKey store')
    (autostartOn : Bool) : menuItems store autostartOn = menuItems store' autostartOn := by
  have hparts := trayKeyParts_eq h
  simp only [trayKeyParts, Prod.mk.injEq] at hparts
  obtain ⟨hconnected, hstate, hlive⟩ := hparts
  have hconnected : store.connected = store'.connected := by
    cases hcase : store.connected <;> cases hcase' : store'.connected <;> simp_all
  have hstate : store.snapshot.map (·.runtimeState) = store'.snapshot.map (·.runtimeState) := by
    cases hcase : store.snapshot with
    | none =>
        cases hcase' : store'.snapshot with
        | none => rfl
        | some snapshot' =>
            exact absurd (by simpa [hcase, hcase'] using hstate.symm) (asStr_ne_none _)
    | some snapshot =>
        cases hcase' : store'.snapshot with
        | none => exact absurd (by simpa [hcase, hcase'] using hstate) (asStr_ne_none _)
        | some snapshot' =>
            have hsame : snapshot.runtimeState = snapshot'.runtimeState :=
              asStr_inj (by simpa [hcase, hcase'] using hstate)
            simp [hsame]
  have hlive : store.connection = store'.connection := by
    rcases hcase : store.connection with _ | ⟨_ | _⟩ <;>
      rcases hcase' : store'.connection with _ | ⟨_ | _⟩ <;> simp_all
  have hstatus : statusText store = statusText store' := by
    obtain ⟨connected, _ | snapshot⟩ := store <;> obtain ⟨connected', _ | snapshot'⟩ := store' <;>
      cases connected <;> simp_all [statusText]
  rw [menuItems, menuItems, hstatus, hlive]

/-- Where a rebuild is: before it has read the autostart entry, or with its menu to set. -/
inductive RebuildStage where
  | building (store : AppStore)
  | built (store : AppStore) (autostartOn : Bool)
  deriving DecidableEq

def RebuildStage.store : RebuildStage → AppStore
  | .building store | .built store _ => store

/-- Where a click on the autostart entry is; `switched` also after an error. -/
inductive ToggleStage where
  | reading
  | switching (wasOn : Bool)
  | switched
  deriving DecidableEq

inductive InitStage where
  | waiting
  | building (store : AppStore)
  | creating (store : AppStore) (autostartOn : Bool)
  | ended
  deriving DecidableEq

/-- `menu` is that of the tray, once there is one; `failed` tells whether the last rebuild that
ended has thrown. -/
structure Tray where
  store : AppStore
  autostartOn : Bool
  init : InitStage := .waiting
  menu : Option (List TrayItem) := none
  lastKey : Option String := none
  rebuilding : Bool := false
  rebuildQueued : Bool := false
  rebuilds : List RebuildStage := []
  toggles : List ToggleStage := []
  failed : Bool := false

inductive TrayEvent where
  | initTray
  | initReads (succeeds : Bool)
  | initCreates (succeeds : Bool)
  | storeChanges (store : AppStore)
  | rebuildReads (i : Nat) (succeeds : Bool)
  | rebuildSets (i : Nat)
  | rebuildThrows (i : Nat)
  | clicksAutostart
  | toggleReads (i : Nat) (succeeds : Bool)
  | toggleSwitches (i : Nat) (succeeds : Bool)
  | toggleRebuilds (i : Nat)
  | autostartChanges (autostartOn : Bool)

/-- The step neither changes the entry from outside nor misreads it. -/
def TrayEvent.keepsEntry : TrayEvent → Bool
  | .autostartChanges _ | .rebuildReads _ false => false
  | _ => true

/-- The steps of rebuilds that have begun. -/
def TrayEvent.isRebuild : TrayEvent → Bool
  | .rebuildReads _ _ | .rebuildSets _ | .rebuildThrows _ => true
  | _ => false

def RebuildStage.rank : RebuildStage → Nat
  | .building _ => 2
  | .built _ _ => 1

namespace Tray

def rebuildMenu (t : Tray) (force : Bool) : Tray :=
  if t.menu.isNone then t
  else if !force && decide (t.lastKey = some (trayKey t.store)) then t
  else if t.rebuilding then { t with rebuildQueued := true }
  else
    { t with
      rebuilding := true
      lastKey := some (trayKey t.store)
      rebuilds := t.rebuilds ++ [.building t.store] }

/-- The end of a rebuild, whichever way it ends. -/
def rebuildEnds (t : Tray) (i : Nat) (failed : Bool) : Tray :=
  let t := { t with rebuilds := t.rebuilds.eraseIdx i, rebuilding := false, failed }
  if t.rebuildQueued then { t with rebuildQueued := false }.rebuildMenu true else t

/-- A read of the autostart entry that fails counts as off. -/
def readAutostart (t : Tray) (succeeds : Bool) : Bool := succeeds && t.autostartOn

/-- The tray follows the store once it is there. Whatever fails while it is made, there is none. -/
def step (t : Tray) : TrayEvent → Option Tray
  | .initTray =>
      if t.init = .waiting then
        some { t with init := .building t.store, lastKey := some (trayKey t.store) }
      else none
  | .initReads succeeds =>
      match t.init with
      | .building store => some { t with init := .creating store (t.readAutostart succeeds) }
      | _ => none
  | .initCreates succeeds =>
      match t.init with
      | .creating store autostartOn =>
          some { t with
            init := .ended
            menu := if succeeds then some (menuItems store autostartOn) else none }
      | _ => none
  | .storeChanges store => some ({ t with store }.rebuildMenu false)
  | .rebuildReads i succeeds =>
      match t.rebuilds[i]? with
      | some (.building store) =>
          some { t with rebuilds := t.rebuilds.set i (.built store (t.readAutostart succeeds)) }
      | _ => none
  | .rebuildSets i =>
      match t.rebuilds[i]? with
      | some (.built store autostartOn) =>
          some ({ t with menu := some (menuItems store autostartOn) }.rebuildEnds i false)
      | _ => none
  | .rebuildThrows i =>
      match t.rebuilds[i]? with
      | some _ => some (t.rebuildEnds i true)
      | none => none
  | .clicksAutostart =>
      if t.menu.isSome then some { t with toggles := t.toggles ++ [.reading] } else none
  | .toggleReads i succeeds =>
      match t.toggles[i]? with
      | some .reading =>
          let stage := if succeeds then .switching t.autostartOn else .switched
          some { t with toggles := t.toggles.set i stage }
      | _ => none
  | .toggleSwitches i succeeds =>
      match t.toggles[i]? with
      | some (.switching wasOn) =>
          some { t with
            autostartOn := if succeeds then !wasOn else t.autostartOn
            toggles := t.toggles.set i .switched }
      | _ => none
  | .toggleRebuilds i =>
      match t.toggles[i]? with
      | some .switched => some ({ t with toggles := t.toggles.eraseIdx i }.rebuildMenu true)
      | _ => none
  | .autostartChanges autostartOn => some { t with autostartOn }

theorem rebuildMenu_cases (t : Tray) (force : Bool) :
    (t.rebuildMenu force = t ∧
      (t.menu = none ∨ force = false ∧ t.lastKey = some (trayKey t.store))) ∨
    (t.menu ≠ none ∧ t.rebuilding = true ∧ t.rebuildMenu force = { t with rebuildQueued := true }) ∨
    (t.menu ≠ none ∧ t.rebuilding = false ∧ t.rebuildMenu force =
      { t with
        rebuilding := true
        lastKey := some (trayKey t.store)
        rebuilds := t.rebuilds ++ [.building t.store] }) := by
  unfold rebuildMenu
  cases hmenu : t.menu with
  | none => exact Or.inl (by simp)
  | some menu =>
      by_cases hsame : force = false ∧ t.lastKey = some (trayKey t.store)
      · exact Or.inl (by simp [hsame])
      · have hgoes : (!force && decide (t.lastKey = some (trayKey t.store))) = false := by
          cases force <;> simp_all
        cases hrebuilding : t.rebuilding <;> simp [hgoes]

/-- The rebuild that runs is the only one, and of the store that the last key is of. -/
structure Sound (t : Tray) : Prop where
  idle : t.rebuilding = false → t.rebuilds = []
  busy : t.rebuilding = true → ∃ stage, t.rebuilds = [stage] ∧
    t.lastKey = some (trayKey stage.store)
  queued : t.rebuildQueued = true → t.rebuilding = true
  absent : t.menu = none → t.rebuilding = false ∧ t.toggles = []
  initial : t.init ≠ .ended → t.menu = none
  initialKey : ∀ store, t.init = .building store ∨
    (∃ autostartOn, t.init = .creating store autostartOn) → t.lastKey = some (trayKey store)
  shown : ∀ menu, t.menu = some menu → t.rebuilding = false → t.failed = false →
    ∃ store autostartOn, menu = menuItems store autostartOn ∧ t.lastKey = some (trayKey store)

theorem Sound.rebuilds_get {t : Tray} (h : t.Sound) {i : Nat} {stage : RebuildStage}
    (hget : t.rebuilds[i]? = some stage) : i = 0 ∧ t.rebuilding = true ∧ t.rebuilds = [stage] ∧
      t.lastKey = some (trayKey stage.store) := by
  cases hrebuilding : t.rebuilding with
  | false =>
      rw [h.idle hrebuilding] at hget
      simp at hget
  | true =>
      obtain ⟨only, honly, hkey⟩ := h.busy hrebuilding
      rw [honly, List.getElem?_singleton] at hget
      split at hget
      · rename_i hi
        obtain rfl := Option.some.inj hget
        exact ⟨hi, rfl, honly, hkey⟩
      · contradiction

theorem Sound.rebuildMenu {t : Tray} (h : t.Sound) (force : Bool) :
    (t.rebuildMenu force).Sound := by
  rcases rebuildMenu_cases t force with
    ⟨hsame, -⟩ | ⟨hmenu, hbusy, hqueued⟩ | ⟨hmenu, hidle, hstarts⟩
  · rw [hsame]
    exact h
  · rw [hqueued]
    exact { h with queued := fun _ => hbusy }
  · rw [hstarts]
    constructor
    · simp
    · intro _
      exact ⟨.building t.store, by simp [h.idle hidle], rfl⟩
    · simp
    · intro hnone
      exact absurd hnone hmenu
    · exact h.initial
    · intro store hstore
      have hinit : t.init ≠ .ended := by
        rcases hstore with hstore | ⟨autostartOn, hstore⟩ <;> simp_all
      exact absurd (h.initial hinit) hmenu
    · simp

/-- The state that a rebuild leaves, before what was queued is begun. -/
def rested (t : Tray) (failed : Bool) : Tray :=
  { t with rebuilds := [], rebuilding := false, rebuildQueued := false, failed }

theorem rebuildEnds_eq {t : Tray} {stage : RebuildStage} (hrebuilds : t.rebuilds = [stage])
    (failed : Bool) : t.rebuildEnds 0 failed =
      if t.rebuildQueued then (t.rested failed).rebuildMenu true else t.rested failed := by
  unfold rebuildEnds rested
  cases hqueued : t.rebuildQueued <;> simp [hrebuilds]

theorem Sound.menu_ne_none {t : Tray} (h : t.Sound) (hbusy : t.rebuilding = true) :
    t.menu ≠ none := by
  intro hnone
  rw [(h.absent hnone).1] at hbusy
  contradiction

theorem Sound.rested {t : Tray} (h : t.Sound) {stage : RebuildStage}
    (hrebuilds : t.rebuilds = [stage]) {failed : Bool}
    (hshown : failed = false → ∃ autostartOn, t.menu = some (menuItems stage.store autostartOn)) :
    (t.rested failed).Sound := by
  have hget : t.rebuilds[0]? = some stage := by simp [hrebuilds]
  obtain ⟨-, hbusy, -, hkey⟩ := h.rebuilds_get hget
  constructor
  · intro _
    rfl
  · simp [Tray.rested]
  · simp [Tray.rested]
  · intro hmenu
    exact absurd hmenu (h.menu_ne_none hbusy)
  · exact h.initial
  · exact h.initialKey
  · intro menu hmenu _ hfailed
    obtain ⟨autostartOn, hsome⟩ := hshown hfailed
    have hsame : t.menu = some menu := hmenu
    rw [hsome] at hsame
    exact ⟨stage.store, autostartOn, (Option.some.inj hsame).symm, hkey⟩

theorem Sound.rebuildEnds {t : Tray} (h : t.Sound) {i : Nat} {stage : RebuildStage}
    (hget : t.rebuilds[i]? = some stage) {failed : Bool}
    (hshown : failed = false → ∃ autostartOn, t.menu = some (menuItems stage.store autostartOn)) :
    (t.rebuildEnds i failed).Sound := by
  obtain ⟨rfl, -, hrebuilds, -⟩ := h.rebuilds_get hget
  have hrested := h.rested hrebuilds hshown
  rw [rebuildEnds_eq hrebuilds]
  split
  · exact hrested.rebuildMenu true
  · exact hrested

theorem Sound.init_ended {t : Tray} (h : t.Sound) (hmenu : t.menu ≠ none) : t.init = .ended := by
  by_contra hinit
  exact hmenu (h.initial hinit)

theorem Sound.step {t t' : Tray} (h : t.Sound) {e : TrayEvent} (hstep : t.step e = some t') :
    t'.Sound := by
  cases e with
  | initTray =>
      obtain ⟨hinit, hstep⟩ := Option.ite_none_right_eq_some.mp hstep
      obtain rfl := Option.some.inj hstep
      have hmenu := h.initial (by simp [hinit])
      obtain ⟨hidle, -⟩ := h.absent hmenu
      exact {
        idle := h.idle
        busy := by simp [hidle]
        queued := h.queued
        absent := h.absent
        initial := fun _ => hmenu
        initialKey := by simp
        shown := by simp [hmenu] }
  | initReads succeeds =>
      simp only [Tray.step] at hstep
      split at hstep
      · rename_i store hinit
        obtain rfl := Option.some.inj hstep
        have hmenu := h.initial (by simp [hinit])
        have hkey := h.initialKey store (Or.inl hinit)
        exact { h with
          initial := fun _ => hmenu
          initialKey := by simpa using hkey }
      · contradiction
  | initCreates succeeds =>
      simp only [Tray.step] at hstep
      split at hstep
      · rename_i store autostartOn hinit
        obtain rfl := Option.some.inj hstep
        have hmenu := h.initial (by simp [hinit])
        have hkey := h.initialKey store (Or.inr ⟨autostartOn, hinit⟩)
        obtain ⟨hidle, htoggles⟩ := h.absent hmenu
        refine { h with absent := ?_, initial := by simp, initialKey := by simp, shown := ?_ }
        · exact fun _ => ⟨hidle, htoggles⟩
        · intro menu hsome _ _
          cases succeeds with
          | false => simp at hsome
          | true => exact ⟨store, autostartOn, (Option.some.inj hsome).symm, hkey⟩
      · contradiction
  | storeChanges store =>
      obtain rfl := Option.some.inj hstep
      have hsound : Sound { t with store } := { h with }
      exact hsound.rebuildMenu false
  | rebuildReads i succeeds =>
      simp only [Tray.step] at hstep
      split at hstep
      · rename_i store hget
        obtain rfl := Option.some.inj hstep
        obtain ⟨rfl, hbusy, hrebuilds, hkey⟩ := h.rebuilds_get hget
        refine { h with idle := ?_, busy := ?_ }
        · intro hidle
          rw [hbusy] at hidle
          contradiction
        · intro _
          exact ⟨.built store (t.readAutostart succeeds), by simp [hrebuilds], hkey⟩
      · contradiction
  | rebuildSets i =>
      simp only [Tray.step] at hstep
      split at hstep
      · rename_i store autostartOn hget
        obtain rfl := Option.some.inj hstep
        obtain ⟨-, hbusy, -⟩ := h.rebuilds_get hget
        have hmenu := h.menu_ne_none hbusy
        have hsound : Sound { t with menu := some (menuItems store autostartOn) } := {
          h with
          absent := by simp
          initial := fun hinit => absurd (h.init_ended hmenu) hinit
          shown := by simp [hbusy] }
        exact hsound.rebuildEnds hget (fun _ => ⟨autostartOn, rfl⟩)
      · contradiction
  | rebuildThrows i =>
      simp only [Tray.step] at hstep
      split at hstep
      · rename_i stage hget
        obtain rfl := Option.some.inj hstep
        exact h.rebuildEnds hget (by simp)
      · contradiction
  | clicksAutostart =>
      obtain ⟨hmenu, hstep⟩ := Option.ite_none_right_eq_some.mp hstep
      obtain rfl := Option.some.inj hstep
      refine { h with absent := ?_ }
      intro hnone
      simp [show t.menu = none from hnone] at hmenu
  | toggleReads i succeeds | toggleSwitches i succeeds =>
      simp only [Tray.step] at hstep
      split at hstep
      · rename_i hget
        obtain rfl := Option.some.inj hstep
        refine { h with absent := ?_ }
        intro hnone
        rw [(h.absent hnone).2] at hget
        simp at hget
      · contradiction
  | toggleRebuilds i =>
      simp only [Tray.step] at hstep
      split at hstep
      · rename_i hget
        obtain rfl := Option.some.inj hstep
        have hsound : Sound { t with toggles := t.toggles.eraseIdx i } := by
          refine { h with absent := ?_ }
          intro hnone
          rw [(h.absent hnone).2] at hget
          simp at hget
        exact hsound.rebuildMenu true
      · contradiction
  | autostartChanges autostartOn =>
      obtain rfl := Option.some.inj hstep
      exact { h with }

theorem rebuildMenu_menu (t : Tray) (force : Bool) : (t.rebuildMenu force).menu = t.menu := by
  rcases rebuildMenu_cases t force with ⟨hsame, -⟩ | ⟨-, -, hqueued⟩ | ⟨-, -, hstarts⟩
  · rw [hsame]
  · rw [hqueued]
  · rw [hstarts]

/-- The last key is that of the store, or another rebuild is to come. -/
def Follows (t : Tray) : Prop :=
  t.menu ≠ none ∧ (t.lastKey = some (trayKey t.store) ∨ t.rebuildQueued = true)

theorem follows_rebuildMenu {t : Tray} (hmenu : t.menu ≠ none) (force : Bool) :
    (t.rebuildMenu force).Follows := by
  refine ⟨by rw [rebuildMenu_menu]; exact hmenu, ?_⟩
  rcases rebuildMenu_cases t force with ⟨hsame, hnone | ⟨-, hkey⟩⟩ | ⟨-, -, hqueued⟩ |
    ⟨-, -, hstarts⟩
  · exact absurd hnone hmenu
  · exact Or.inl (by rw [hsame, hkey])
  · exact Or.inr (by rw [hqueued])
  · exact Or.inl (by rw [hstarts])

theorem Follows.rebuildEnds {t : Tray} (h : t.Follows) {stage : RebuildStage}
    (hrebuilds : t.rebuilds = [stage]) (failed : Bool) : (t.rebuildEnds 0 failed).Follows := by
  obtain ⟨hmenu, hfollows⟩ := h
  rw [rebuildEnds_eq hrebuilds]
  cases hqueued : t.rebuildQueued with
  | true => exact follows_rebuildMenu (t := t.rested failed) hmenu true
  | false =>
      have hkey : t.lastKey = some (trayKey t.store) := by simpa [hqueued] using hfollows
      exact ⟨hmenu, Or.inl hkey⟩

theorem Follows.step {t t' : Tray} (hsound : t.Sound) (h : t.Follows) {e : TrayEvent}
    (hstep : t.step e = some t') : t'.Follows := by
  obtain ⟨hmenu, hfollows⟩ := h
  have hinit := hsound.init_ended hmenu
  cases e with
  | initTray | initReads succeeds | initCreates succeeds => simp [Tray.step, hinit] at hstep
  | storeChanges store =>
      obtain rfl := Option.some.inj hstep
      exact follows_rebuildMenu (t := { t with store }) hmenu false
  | rebuildReads i succeeds | toggleReads i succeeds | toggleSwitches i succeeds =>
      simp only [Tray.step] at hstep
      split at hstep
      · obtain rfl := Option.some.inj hstep
        exact ⟨hmenu, hfollows⟩
      · contradiction
  | rebuildSets i =>
      simp only [Tray.step] at hstep
      split at hstep
      · rename_i store autostartOn hget
        obtain rfl := Option.some.inj hstep
        obtain ⟨rfl, -, hrebuilds, -⟩ := hsound.rebuilds_get hget
        have hset : Follows { t with menu := some (menuItems store autostartOn) } :=
          ⟨by simp, hfollows⟩
        exact hset.rebuildEnds hrebuilds false
      · contradiction
  | rebuildThrows i =>
      simp only [Tray.step] at hstep
      split at hstep
      · rename_i stage hget
        obtain rfl := Option.some.inj hstep
        obtain ⟨rfl, -, hrebuilds, -⟩ := hsound.rebuilds_get hget
        exact Follows.rebuildEnds ⟨hmenu, hfollows⟩ hrebuilds true
      · contradiction
  | clicksAutostart =>
      obtain ⟨-, hstep⟩ := Option.ite_none_right_eq_some.mp hstep
      obtain rfl := Option.some.inj hstep
      exact ⟨hmenu, hfollows⟩
  | toggleRebuilds i =>
      simp only [Tray.step] at hstep
      split at hstep
      · obtain rfl := Option.some.inj hstep
        exact follows_rebuildMenu (t := { t with toggles := t.toggles.eraseIdx i }) hmenu true
      · contradiction
  | autostartChanges autostartOn =>
      obtain rfl := Option.some.inj hstep
      exact ⟨hmenu, hfollows⟩

/-- A rebuild that has yet to read the autostart entry is under way or will be. -/
def OwesRead (t : Tray) : Prop :=
  t.rebuildQueued = true ∨ (∃ store, t.rebuilds = [.building store]) ∨ .switched ∈ t.toggles

/-- What the menu shows of the autostart entry is as it is, or a rebuild will make it so. -/
def Tracks (t : Tray) : Prop :=
  t.OwesRead ∨ (∃ store, t.rebuilds = [.built store t.autostartOn]) ∨
    t.rebuilding = false ∧
      (t.failed = true ∨ ∃ store, t.menu = some (menuItems store t.autostartOn))

theorem owesRead_rebuildMenu {t : Tray} (hsound : t.Sound) (hmenu : t.menu ≠ none) :
    (t.rebuildMenu true).OwesRead := by
  rcases rebuildMenu_cases t true with ⟨-, hnone | ⟨hforce, -⟩⟩ | ⟨-, -, hqueued⟩ |
    ⟨-, hidle, hstarts⟩
  · exact absurd hnone hmenu
  · contradiction
  · exact Or.inl (by rw [hqueued])
  · exact Or.inr (Or.inl ⟨t.store, by simp [hstarts, hsound.idle hidle]⟩)

theorem Tracks.rebuildMenu {t : Tray} (h : t.Tracks) (hsound : t.Sound) (force : Bool) :
    (t.rebuildMenu force).Tracks := by
  rcases rebuildMenu_cases t force with ⟨hsame, -⟩ | ⟨-, -, hqueued⟩ | ⟨-, hidle, hstarts⟩
  · rw [hsame]
    exact h
  · rw [hqueued]
    exact Or.inl (Or.inl rfl)
  · rw [hstarts]
    exact Or.inl (Or.inr (Or.inl ⟨t.store, by simp [hsound.idle hidle]⟩))

theorem tracks_rebuildEnds {t : Tray} (hsound : t.Sound) {stage : RebuildStage}
    (hrebuilds : t.rebuilds = [stage]) {failed : Bool}
    (hshown : failed = false → ∃ autostartOn, t.menu = some (menuItems stage.store autostartOn))
    (hentry : t.rebuildQueued = true ∨ .switched ∈ t.toggles ∨ failed = true ∨
      ∃ store, t.menu = some (menuItems store t.autostartOn)) :
    (t.rebuildEnds 0 failed).Tracks := by
  have hget : t.rebuilds[0]? = some stage := by simp [hrebuilds]
  obtain ⟨-, hbusy, -⟩ := hsound.rebuilds_get hget
  have hrested := hsound.rested hrebuilds hshown
  rw [rebuildEnds_eq hrebuilds]
  cases hqueued : t.rebuildQueued with
  | true =>
      have hmenu : (t.rested failed).menu ≠ none := hsound.menu_ne_none hbusy
      exact Or.inl (owesRead_rebuildMenu hrested hmenu)
  | false =>
      rcases hentry with hqueued' | hswitched | hends
      · rw [hqueued] at hqueued'
        contradiction
      · exact Or.inl (Or.inr (Or.inr hswitched))
      · exact Or.inr (Or.inr ⟨rfl, hends⟩)

theorem Tracks.step {t t' : Tray} (hsound : t.Sound) (hmenu : t.menu ≠ none) (h : t.Tracks)
    {e : TrayEvent} (he : e.keepsEntry = true) (hstep : t.step e = some t') : t'.Tracks := by
  have hinit := hsound.init_ended hmenu
  cases e with
  | initTray | initReads succeeds | initCreates succeeds => simp [Tray.step, hinit] at hstep
  | storeChanges store =>
      obtain rfl := Option.some.inj hstep
      have hsound' : Sound { t with store } := { hsound with }
      exact Tracks.rebuildMenu (t := { t with store }) h hsound' false
  | rebuildReads i succeeds =>
      simp only [Tray.step] at hstep
      split at hstep
      · rename_i store hget
        obtain rfl := Option.some.inj hstep
        obtain ⟨rfl, -, hrebuilds, -⟩ := hsound.rebuilds_get hget
        cases succeeds with
        | false => contradiction
        | true => exact Or.inr (Or.inl ⟨store, by simp [hrebuilds, readAutostart]⟩)
      · contradiction
  | rebuildSets i =>
      simp only [Tray.step] at hstep
      split at hstep
      · rename_i store autostartOn hget
        obtain rfl := Option.some.inj hstep
        obtain ⟨rfl, hbusy, hrebuilds, -⟩ := hsound.rebuilds_get hget
        have hset : Sound { t with menu := some (menuItems store autostartOn) } := {
          hsound with
          absent := by simp
          initial := fun hnot => absurd hinit hnot
          shown := by simp [hbusy] }
        refine tracks_rebuildEnds hset hrebuilds (fun _ => ⟨autostartOn, rfl⟩) ?_
        rcases h with (hqueued | ⟨store', hbuilding⟩ | hswitched) | ⟨store', hbuilt⟩ | ⟨hidle, -⟩
        · exact Or.inl hqueued
        · simp [hrebuilds] at hbuilding
        · exact Or.inr (Or.inl hswitched)
        · obtain ⟨-, rfl⟩ : store = store' ∧ autostartOn = t.autostartOn := by
            simpa [hrebuilds] using hbuilt
          exact Or.inr (Or.inr (Or.inr ⟨store, rfl⟩))
        · rw [hbusy] at hidle
          contradiction
      · contradiction
  | rebuildThrows i =>
      simp only [Tray.step] at hstep
      split at hstep
      · rename_i stage hget
        obtain rfl := Option.some.inj hstep
        obtain ⟨rfl, -, hrebuilds, -⟩ := hsound.rebuilds_get hget
        exact tracks_rebuildEnds hsound hrebuilds (by simp) (Or.inr (Or.inr (Or.inl rfl)))
      · contradiction
  | clicksAutostart =>
      obtain ⟨-, hstep⟩ := Option.ite_none_right_eq_some.mp hstep
      obtain rfl := Option.some.inj hstep
      rcases h with (hqueued | hbuilding | hswitched) | hrest
      · exact Or.inl (Or.inl hqueued)
      · exact Or.inl (Or.inr (Or.inl hbuilding))
      · exact Or.inl (Or.inr (Or.inr (List.mem_append_left _ hswitched)))
      · exact Or.inr hrest
  | toggleReads i succeeds =>
      simp only [Tray.step] at hstep
      split at hstep
      · rename_i hget
        obtain rfl := Option.some.inj hstep
        rcases h with (hqueued | hbuilding | hswitched) | hrest
        · exact Or.inl (Or.inl hqueued)
        · exact Or.inl (Or.inr (Or.inl hbuilding))
        · obtain ⟨j, hj⟩ := List.mem_iff_getElem?.mp hswitched
          have hij : i ≠ j := by
            rintro rfl
            rw [hget] at hj
            simp at hj
          have hkept : (t.toggles.set i
              (if succeeds then .switching t.autostartOn else .switched))[j]? = some .switched := by
            rw [List.getElem?_set_ne hij, hj]
          exact Or.inl (Or.inr (Or.inr (List.mem_of_getElem? hkept)))
        · exact Or.inr hrest
      · contradiction
  | toggleSwitches i succeeds =>
      simp only [Tray.step] at hstep
      split at hstep
      · rename_i wasOn hget
        obtain rfl := Option.some.inj hstep
        obtain ⟨hlt, -⟩ := List.getElem?_eq_some_iff.mp hget
        exact Or.inl (Or.inr (Or.inr (List.mem_set hlt _)))
      · contradiction
  | toggleRebuilds i =>
      simp only [Tray.step] at hstep
      split at hstep
      · rename_i hget
        obtain rfl := Option.some.inj hstep
        have hsound' : Sound { t with toggles := t.toggles.eraseIdx i } :=
          { hsound with absent := fun hnone => absurd hnone hmenu }
        exact Or.inl (owesRead_rebuildMenu hsound' hmenu)
      · contradiction
  | autostartChanges autostartOn => contradiction

/-- How many steps of rebuilds there are to come if nothing else happens. -/
def rank (t : Tray) : Nat :=
  (match t.rebuilds with
    | [] => 0
    | stage :: _ => stage.rank) + if t.rebuildQueued then 2 else 0

theorem rank_rebuildEnds {t : Tray} {stage : RebuildStage} (hrebuilds : t.rebuilds = [stage])
    (failed : Bool) : (t.rebuildEnds 0 failed).rank < t.rank := by
  have hpos : 0 < stage.rank := by cases stage <;> simp [RebuildStage.rank]
  have hrested : (t.rested failed).rank = 0 := rfl
  rw [rebuildEnds_eq hrebuilds]
  cases hqueued : t.rebuildQueued with
  | false =>
      have hrank : t.rank = stage.rank := by simp [rank, hrebuilds, hqueued]
      simp only [Bool.false_eq_true, if_false]
      omega
  | true =>
      have hrank : t.rank = stage.rank + 2 := by simp [rank, hrebuilds, hqueued]
      simp only [if_true]
      rcases rebuildMenu_cases (t.rested failed) true with ⟨hsame, -⟩ | ⟨-, hbusy, -⟩ |
        ⟨-, -, hstarts⟩
      · rw [hsame]
        omega
      · contradiction
      · have hnew : ((t.rested failed).rebuildMenu true).rank = 2 := by rw [hstarts]; rfl
        omega

theorem rank_step {t t' : Tray} (hsound : t.Sound) {e : TrayEvent} (he : e.isRebuild = true)
    (hstep : t.step e = some t') : t'.rank < t.rank := by
  cases e with
  | rebuildReads i succeeds =>
      simp only [Tray.step] at hstep
      split at hstep
      · rename_i store hget
        obtain rfl := Option.some.inj hstep
        obtain ⟨rfl, -, hrebuilds, -⟩ := hsound.rebuilds_get hget
        simp [rank, hrebuilds, RebuildStage.rank]
      · contradiction
  | rebuildSets i =>
      simp only [Tray.step] at hstep
      split at hstep
      · rename_i store autostartOn hget
        obtain rfl := Option.some.inj hstep
        obtain ⟨rfl, -, hrebuilds, -⟩ := hsound.rebuilds_get hget
        have hlt := rank_rebuildEnds (t := { t with menu := some (menuItems store autostartOn) })
          hrebuilds false
        exact hlt
      · contradiction
  | rebuildThrows i =>
      simp only [Tray.step] at hstep
      split at hstep
      · rename_i stage hget
        obtain rfl := Option.some.inj hstep
        obtain ⟨rfl, -, hrebuilds, -⟩ := hsound.rebuilds_get hget
        exact rank_rebuildEnds hrebuilds true
      · contradiction
  | _ => contradiction

theorem sound_new (store : AppStore) (autostartOn : Bool) : Sound { store, autostartOn } where
  idle := by simp
  busy := by simp
  queued := by simp
  absent := by simp
  initial := by simp
  initialKey := by simp
  shown := by simp

theorem Sound.exec {t t' : Tray} (h : t.Sound) {events : List TrayEvent}
    (hexec : exec Tray.step t events = some t') : t'.Sound :=
  exec_invariant (I := Sound) h (fun _ _ _ hs hstep => hs.step hstep) hexec

theorem Follows.exec {t t' : Tray} (hsound : t.Sound) (h : t.Follows) {events : List TrayEvent}
    (hexec : exec Tray.step t events = some t') : t'.Sound ∧ t'.Follows :=
  exec_invariant (I := fun t => t.Sound ∧ t.Follows) ⟨hsound, h⟩
    (fun _ _ _ hs hstep => ⟨hs.1.step hstep, hs.2.step hs.1 hstep⟩) hexec

theorem shows_store {t : Tray} (hsound : t.Sound) (hfollows : t.Follows)
    (hrest : t.rebuilding = false) (hfailed : t.failed = false) :
    ∃ autostartOn, t.menu = some (menuItems t.store autostartOn) := by
  obtain ⟨hmenu, hkey | hqueued⟩ := hfollows
  · obtain ⟨menu, hsome⟩ := Option.ne_none_iff_exists'.mp hmenu
    obtain ⟨store, autostartOn, rfl, hlast⟩ := hsound.shown menu hsome hrest hfailed
    refine ⟨autostartOn, ?_⟩
    rw [hsome, menuItems_of_trayKey (Option.some.inj (hlast.symm.trans hkey))]
  · rw [hsound.queued hqueued] at hrest
    contradiction

theorem autostartOn_of_menuItems {store store' : AppStore} {autostartOn autostartOn' : Bool}
    (h : menuItems store autostartOn = menuItems store' autostartOn') :
    autostartOn = autostartOn' := by
  have hmem : TrayItem.autostart autostartOn ∈ menuItems store' autostartOn' := by
    rw [← h]
    simp [menuItems]
  rcases hcase : store'.connection with _ | ⟨_ | _⟩ <;> simpa [menuItems, hcase] using hmem

/-- At most one rebuild runs at a time, however often one is asked for. Once nobody asks any more
the rebuilds end after four steps at most, of which one is enabled as long as one runs. -/
theorem rebuilds_are_coalesced (store : AppStore) (autostartOn : Bool)
    (events own : List TrayEvent) {t t' : Tray}
    (h : exec step { store, autostartOn } events = some t) (hown : ∀ e ∈ own, e.isRebuild = true)
    (hexec : exec step t own = some t') :
    t.rebuilds.length ≤ 1 ∧ own.length ≤ 4 ∧
      ((∀ e : TrayEvent, e.isRebuild = true → t'.step e = none) →
        t'.rebuilding = false ∧ t'.rebuildQueued = false) := by
  have hsound := (sound_new store autostartOn).exec h
  have hbound : t.rebuilds.length ≤ 1 ∧ t.rank ≤ 4 := by
    cases hrebuilding : t.rebuilding with
    | false => cases hqueued : t.rebuildQueued <;> simp [rank, hsound.idle hrebuilding, hqueued]
    | true =>
        obtain ⟨stage, hstage, -⟩ := hsound.busy hrebuilding
        cases stage <;> cases hqueued : t.rebuildQueued <;>
          simp [rank, hstage, hqueued, RebuildStage.rank]
  have hrun : t'.Sound ∧ own.length + t'.rank ≤ t.rank := by
    refine exec_induction (P := fun own t' => (∀ e ∈ own, e.isRebuild = true) →
      t'.Sound ∧ own.length + t'.rank ≤ t.rank) ?_ ?_ hexec hown
    · intro _
      exact ⟨hsound, by simp⟩
    · intro own t₁ e t₂ _ ih hstep hall
      obtain ⟨hsound₁, hle⟩ := ih fun f hf => hall f (List.mem_append_left _ hf)
      have hlt := rank_step hsound₁ (hall e (by simp)) hstep
      refine ⟨hsound₁.step hstep, ?_⟩
      rw [List.length_append, List.length_singleton]
      omega
  refine ⟨hbound.1, by omega, ?_⟩
  intro hstuck
  have hidle : t'.rebuilding = false := by
    by_contra hbusy
    obtain ⟨stage, hstage, -⟩ := hrun.1.busy (by simpa using hbusy)
    have hthrows := hstuck (.rebuildThrows 0) rfl
    simp [Tray.step, hstage] at hthrows
  refine ⟨hidle, ?_⟩
  by_contra hqueued
  rw [hrun.1.queued (by simpa using hqueued)] at hidle
  contradiction

def created : List TrayEvent := [.initTray, .initReads true, .initCreates true]

def sharing (runtimeState : RuntimeState) (liveDeskEnabled : Bool) : AppStore :=
  ⟨true, some ⟨runtimeState, some ⟨liveDeskEnabled⟩⟩⟩

/-- The store changes twice while the menu is rebuilt for its first change. -/
def changesWhileBusy : List TrayEvent :=
  [.storeChanges (sharing .connecting true), .rebuildReads 0 true,
    .storeChanges (sharing .active true), .storeChanges (sharing .disabled false)]

theorem rebuilds_are_coalesced_busy : ∃ t t',
    exec step { store := ⟨false, none⟩, autostartOn := true } (created ++ changesWhileBusy) =
        some t ∧
      exec step t [.rebuildSets 0, .rebuildReads 0 true, .rebuildSets 0] = some t' ∧
      t'.rebuilding = false ∧ t'.menu = some (menuItems (sharing .disabled false) true) := by
  obtain ⟨-, -, hrest⟩ := rebuilds_are_coalesced ⟨false, none⟩ true (created ++ changesWhileBusy)
    [.rebuildSets 0, .rebuildReads 0 true, .rebuildSets 0] rfl (by decide) rfl
  refine ⟨_, _, rfl, rfl, (hrest ?_).1, rfl⟩
  intro e he
  cases e <;> first | contradiction | rfl

/-- However rebuilds are asked for, fail and overtake the changes of the store: once the store has
changed after the tray was there, a tray at rest whose last rebuild has not thrown shows what the
store is. -/
theorem tray_shows_the_store (first : AppStore) (autostartOn : Bool) (before after : List TrayEvent)
    (store : AppStore) {t t' : Tray}
    (hbefore : exec step { store := first, autostartOn } before = some t) (hmenu : t.menu ≠ none)
    (hafter : exec step t (.storeChanges store :: after) = some t')
    (hrest : t'.rebuilding = false) (hfailed : t'.failed = false) :
    ∃ shown, t'.menu = some (menuItems t'.store shown) := by
  have hsound := (sound_new first autostartOn).exec hbefore
  obtain ⟨t₁, hstep, hexec⟩ := Option.bind_eq_some_iff.mp hafter
  have hsound₁ := hsound.step hstep
  have hfollows : t₁.Follows := by
    obtain rfl := Option.some.inj hstep
    exact follows_rebuildMenu (t := { t with store }) hmenu false
  obtain ⟨hsound', hfollows'⟩ := hfollows.exec hsound₁ hexec
  exact shows_store hsound' hfollows' hrest hfailed

theorem tray_shows_the_store_busy : ∃ t t',
    exec step { store := ⟨false, none⟩, autostartOn := true } created = some t ∧
      exec step t (changesWhileBusy ++ [.rebuildThrows 0, .rebuildReads 0 true, .rebuildSets 0]) =
        some t' ∧ ∃ shown, t'.menu = some (menuItems t'.store shown) := by
  have hshows := tray_shows_the_store ⟨false, none⟩ true created
    (changesWhileBusy.tail ++ [.rebuildThrows 0, .rebuildReads 0 true, .rebuildSets 0])
    (sharing .connecting true) rfl (by decide) rfl rfl rfl
  exact ⟨_, _, rfl, rfl, hshows⟩

/-- After a click on the autostart entry the menu shows both the store and the entry as they are,
when nothing but clicks changes the entry and no rebuild misreads it. -/
theorem tray_shows_the_autostart_entry (first : AppStore) (autostartOn : Bool)
    (before after : List TrayEvent) (i : Nat) {t t' : Tray}
    (hbefore : exec step { store := first, autostartOn } before = some t)
    (hafter : exec step t (.toggleRebuilds i :: after) = some t')
    (hkeeps : ∀ e ∈ after, e.keepsEntry = true) (htoggles : .switched ∉ t'.toggles)
    (hrest : t'.rebuilding = false) (hfailed : t'.failed = false) :
    t'.menu = some (menuItems t'.store t'.autostartOn) := by
  have hsound := (sound_new first autostartOn).exec hbefore
  obtain ⟨t₁, hstep, hexec⟩ := Option.bind_eq_some_iff.mp hafter
  have hsound₁ := hsound.step hstep
  have hasked : t₁.Follows ∧ t₁.Tracks := by
    simp only [Tray.step] at hstep
    split at hstep
    · rename_i hget
      obtain rfl := Option.some.inj hstep
      have hmenu : t.menu ≠ none := by
        intro hnone
        rw [(hsound.absent hnone).2] at hget
        simp at hget
      have hsound' : Sound { t with toggles := t.toggles.eraseIdx i } :=
        { hsound with absent := fun hnone => absurd hnone hmenu }
      exact ⟨follows_rebuildMenu (t := { t with toggles := t.toggles.eraseIdx i }) hmenu true,
        Or.inl (owesRead_rebuildMenu hsound' hmenu)⟩
    · contradiction
  have hrun : t'.Sound ∧ t'.Follows ∧ t'.Tracks := by
    refine exec_induction (P := fun after t' => (∀ e ∈ after, e.keepsEntry = true) →
      t'.Sound ∧ t'.Follows ∧ t'.Tracks) ?_ ?_ hexec hkeeps
    · intro _
      exact ⟨hsound₁, hasked⟩
    · intro after t₂ e t₃ _ ih hstep hall
      obtain ⟨hsound₂, hfollows, htracks⟩ := ih fun f hf => hall f (List.mem_append_left _ hf)
      exact ⟨hsound₂.step hstep, hfollows.step hsound₂ hstep,
        htracks.step hsound₂ hfollows.1 (hall e (by simp)) hstep⟩
  obtain ⟨hsound', hfollows', htracks'⟩ := hrun
  obtain ⟨shown, hshown⟩ := shows_store hsound' hfollows' hrest hfailed
  have hidle := hsound'.idle hrest
  rcases htracks' with (hqueued | ⟨store, hbuilding⟩ | hswitched) | ⟨store, hbuilt⟩ |
    ⟨-, hthrew | ⟨store, hentry⟩⟩
  · rw [hsound'.queued hqueued] at hrest
    contradiction
  · simp [hidle] at hbuilding
  · exact absurd hswitched htoggles
  · simp [hidle] at hbuilt
  · rw [hfailed] at hthrew
    contradiction
  · rw [hshown, autostartOn_of_menuItems (Option.some.inj (hshown.symm.trans hentry))]

theorem tray_shows_the_autostart_entry_clicked : ∃ t t',
    exec step { store := sharing .active true, autostartOn := true }
        (created ++ [.clicksAutostart, .toggleReads 0 true, .toggleSwitches 0 true]) = some t ∧
      exec step t [.toggleRebuilds 0, .rebuildReads 0 true, .rebuildSets 0] = some t' ∧
      t'.menu = some (menuItems (sharing .active true) false) := by
  have hshows := tray_shows_the_autostart_entry (sharing .active true) true
    (created ++ [.clicksAutostart, .toggleReads 0 true, .toggleSwitches 0 true])
    [.rebuildReads 0 true, .rebuildSets 0] 0 rfl rfl (by decide) (by decide) rfl rfl
  exact ⟨_, _, rfl, rfl, hshows⟩

end Tray

end YohakuCore
