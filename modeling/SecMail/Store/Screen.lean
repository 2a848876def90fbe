import SecMail.Store.Provenance

/-!
# Message screens

`ADZMsgViewController` shows the HTML of one message.  When its view is loaded it becomes the
delegate of the store, asks for the HTML, and loads the answer into its web view if there is one;
otherwise the HTML comes later, through `htmlHadFinishLoaded:html:`.  The store has one delegate,
the screen opened last, and a completion tells the delegate of that moment.

* `screenSystem` adds the screens to the store; its runs are runs of the store
  (`Screens.process_run`);
* `shows_own` : every screen shows its own message as long as HTML is only delivered while the
  delegate is the screen of the message it was rendered for, or nobody;
* `not_shows_own` : a rendering overtaken by the opening of another message shows up there.
-/

namespace SecMail

variable {τ : Type*}

/-- The store and the screens opened since the start of the app. -/
structure Screens (τ : Type*) where
  process : Process τ
  /-- The message of each screen. -/
  screens : List (Msg τ)

/-- What can happen to the screens. -/
inductive ScreenAction (τ : Type*)
  /-- `tableView:didSelectRowAtIndexPath:` pushes the screen of a message. -/
  | openMsg (order : FetchOrders) (msg : Msg τ)
  /-- A screen is left. -/
  | leave (screen : ℕ)
  /-- The store does something else. -/
  | store (action : Action τ)

/-- What is seen of an action: what the store did, and the HTML loaded into a web view, with the
message of the screen it belongs to. -/
structure ScreenObservation (τ : Type*) where
  events : List (Event τ)
  loaded : Option (Msg τ × τ)

namespace Screens

/-- A start of the app with an empty database. -/
def init (imapSession : Option MCOIMAPSession) : Screens τ := ⟨.init .empty imapSession, []⟩

variable (s : Screens τ)

/-- `-viewDidLoad` of a new screen. -/
def viewDidLoad (order : FetchOrders) (msg : Msg τ) : Screens τ × ScreenObservation τ :=
  let store := { s.process.store with delegate := some s.screens.length }
  let r := store.searchHtmlOfMsg order (some msg)
  (⟨⟨r.store, s.process.inFlight ++ r.started.toList⟩, s.screens ++ [msg]⟩,
    { events := [(.setDelegate (some s.screens.length), .silent),
        (.searchHtmlOfMsg order (some msg), .answered r.returned r.started)]
      loaded := r.returned.map fun szHtml => (msg, szHtml) })

/-- A screen is deallocated; the reference of the store to its delegate is weak. -/
def dealloc (screen : ℕ) : Screens τ × ScreenObservation τ :=
  if s.process.store.delegate = some screen then
    ({ s with process.store.delegate := none }, ⟨[(.setDelegate none, .silent)], none⟩)
  else (s, ⟨[], none⟩)

/-- `-htmlHadFinishLoaded:html:` of the delegate that is told about a completion. -/
def htmlHadFinishLoaded : Event τ → Option (Msg τ × τ)
  | (.complete _ (some szHtml), .completed _ (some screen)) =>
    s.screens[screen]?.map fun msg => (msg, szHtml)
  | _ => none

end Screens

/-- The screens and the store as a transition system.  Only screens change the delegate. -/
def screenSystem (τ : Type*) : System (Screens τ) (ScreenAction τ) (ScreenObservation τ) where
  next s
    | .openMsg order msg => some (s.viewDidLoad order msg)
    | .leave screen => some (s.dealloc screen)
    | .store (.setDelegate _) => none
    | .store .restart =>
      some (⟨.init s.process.store.managedObjectContext.restart none, []⟩,
        ⟨[(.restart, .silent)], none⟩)
    | .store a => ((storeSystem τ).next s.process a).map fun r =>
      ({ s with process := r.1 }, ⟨[(a, r.2)], s.htmlHadFinishLoaded (a, r.2)⟩)

/-- Events of a run of the screens. -/
abbrev ScreenEvent (τ : Type*) := ScreenAction τ × ScreenObservation τ

/-- The events of the store in a history. -/
def storeEvents (h : List (ScreenEvent τ)) : List (Event τ) := h.flatMap fun e => e.2.events

/-- The HTML loaded into web views, with the messages of the screens. -/
def loads (h : List (ScreenEvent τ)) : List (Msg τ × τ) := h.filterMap fun e => e.2.loaded

/-- Whatever is loaded into the screen of a message was rendered for a message with its uid. -/
def ShowsOwn (h : List (ScreenEvent τ)) : Prop :=
  ∀ msg szHtml, (msg, szHtml) ∈ loads h →
    ∃ op m, Rendered (storeEvents h) op m szHtml ∧ op.kind = .html ∧ m.szUid = msg.szUid

/-! ### Steps -/

/-- The steps of the screens, by action. -/
inductive ScreenStep (s : Screens τ) : ScreenAction τ → Screens τ → ScreenObservation τ → Prop
  | openMsg (order : FetchOrders) (msg : Msg τ) :
      ScreenStep s (.openMsg order msg) (s.viewDidLoad order msg).1 (s.viewDidLoad order msg).2
  | leave (screen : ℕ) :
      ScreenStep s (.leave screen) (s.dealloc screen).1 (s.dealloc screen).2
  | store {a : Action τ} {p : Process τ} {o : Observation τ} {screens : List (Msg τ)}
      (h : (storeSystem τ).next s.process a = some (p, o)) :
      ScreenStep s (.store a) ⟨p, screens⟩ ⟨[(a, o)], s.htmlHadFinishLoaded (a, o)⟩

theorem screenStep_of_next {s s' : Screens τ} {a : ScreenAction τ} {o : ScreenObservation τ}
    (h : (screenSystem τ).next s a = some (s', o)) : ScreenStep s a s' o := by
  have hmap : ∀ {a}, ((storeSystem τ).next s.process a).map (fun r =>
      (({ s with process := r.1 } : Screens τ),
        (⟨[(a, r.2)], s.htmlHadFinishLoaded (a, r.2)⟩ : ScreenObservation τ))) = some (s', o) →
      ScreenStep s (.store a) s' o := by
    intro a h
    obtain ⟨⟨p, o⟩, hs, h⟩ := Option.map_eq_some_iff.1 h
    cases h
    exact .store hs
  cases a with
  | openMsg order msg => cases h; exact .openMsg order msg
  | leave screen =>
    have h : s.dealloc screen = (s', o) := Option.some.inj h
    have hs := ScreenStep.leave (s := s) screen
    rwa [h] at hs
  | store a =>
    cases a with
    | setDelegate d => cases h
    | restart => cases h; exact .store rfl
    | searchPlaintextOfMsg order m => exact hmap h
    | searchHtmlOfMsg order msg => exact hmap h
    | complete k t => exact hmap h
    | dicCached => exact hmap h
    | setImapSession σ => exact hmap h

namespace Screens

variable {s s' s₀ : Screens τ} {a : ScreenAction τ} {o : ScreenObservation τ}
  {C : Screens τ → ScreenAction τ → Prop} {h : List (ScreenEvent τ)} {h' : List (Event τ)}
  {σ₀ : Option MCOIMAPSession}

/-- A step of the screens is a run of the store. -/
theorem run_of_step (hs : ScreenStep s a s' o) :
    (storeSystem τ).Run s.process o.events s'.process := by
  cases hs with
  | openMsg order msg =>
    have hset : (storeSystem τ).next s.process (.setDelegate (some s.screens.length)) =
        some ({ s.process with store.delegate := some s.screens.length }, .silent) := rfl
    exact (System.RunWhere.single trivial hset).snoc trivial rfl
  | leave screen =>
    unfold dealloc
    split_ifs
    · exact .single trivial rfl
    · exact .nil
  | store hs => exact .single trivial hs

/-- **The runs of the screens are runs of the store.** -/
theorem process_run (hr : (screenSystem τ).RunWhere C s₀ h s) :
    (storeSystem τ).Run s₀.process (storeEvents h) s.process :=
  hr.project Screens.process (fun e => e.2.events)
    fun _ _ _ _ hs => run_of_step (screenStep_of_next hs)

/-- The condition on a step: HTML is delivered while the delegate is the screen of a message with
the uid it was rendered for, or nobody. -/
def DeliversOwn (s : Screens τ) : ScreenAction τ → Prop
  | .store (.complete k (some _)) => ∀ op ∈ s.process.inFlight[k]?, op.kind = .html →
      ∀ screen ∈ s.process.store.delegate, ∀ msg ∈ s.screens[screen]?,
        op.msg.szUid = msg.szUid
  | _ => True

instance (s : Screens τ) : (a : ScreenAction τ) → Decidable (s.DeliversOwn a)
  | .store (.complete k (some _)) => inferInstanceAs (Decidable (∀ op ∈ s.process.inFlight[k]?,
      op.kind = .html → ∀ screen ∈ s.process.store.delegate, ∀ msg ∈ s.screens[screen]?,
        op.msg.szUid = msg.szUid))
  | .openMsg .. => isTrue trivial
  | .leave _ => isTrue trivial
  | .store (.complete _ none) => isTrue trivial
  | .store (.searchPlaintextOfMsg ..) => isTrue trivial
  | .store (.searchHtmlOfMsg ..) => isTrue trivial
  | .store .dicCached => isTrue trivial
  | .store (.setImapSession _) => isTrue trivial
  | .store (.setDelegate _) => isTrue trivial
  | .store .restart => isTrue trivial

/-- What a step loads was rendered for the message of its screen. -/
theorem loaded_of_step (hr : (storeSystem τ).Run (.init .empty σ₀) h' s.process)
    (hC : s.DeliversOwn a) (hs : ScreenStep s a s' o) {msg : Msg τ} {szHtml : τ}
    (hl : o.loaded = some (msg, szHtml)) :
    ∃ op m, Rendered (h' ++ o.events) op m szHtml ∧ op.kind = .html ∧ m.szUid = msg.szUid := by
  cases hs with
  | openMsg order msg' =>
    obtain ⟨t, ht, heq⟩ := Option.map_eq_some_iff.1 hl
    cases heq
    -- changing the delegate changes no text
    have hp := Process.holds_rendered hr
    have hstore : ADZStoreMsgToCoreData.Holds _
        { s.process.store with delegate := some s.screens.length } :=
      ⟨hp.context, hp.plaintext, hp.html⟩
    obtain ⟨op, m, hm, hk, hu⟩ :=
      ((ADZStoreMsgToCoreData.searchHtmlOfMsg_cases _ order msg).holds hstore).2 szHtml ht
    exact ⟨op, m, hm.append _, hk, hu⟩
  | leave screen =>
    unfold dealloc at hl
    split_ifs at hl
  | @store a p o' screens hs =>
    have hrun := System.RunWhere.snoc hr trivial hs
    change s.htmlHadFinishLoaded (a, o') = some (msg, szHtml) at hl
    unfold htmlHadFinishLoaded at hl
    split at hl
    · rename_i k t op screen heq
      cases heq
      obtain ⟨msg', hmsg, heq⟩ := Option.map_eq_some_iff.1 hl
      cases heq
      obtain ⟨m, hm⟩ := Process.rendered_of_run hrun rfl
        ⟨k, some screen, List.mem_append_right _ List.mem_cons_self⟩
      obtain ⟨hk, hd⟩ := completed_of_next hs
      have hown := hm.msg
      -- only HTML is sent to the delegate
      cases op with
      | plainTextBody => cases hd
      | html msg₁ σ i =>
        have hu := hC _ hk rfl screen hd.symm msg hmsg
        rw [hown] at hu
        exact ⟨_, m, hm, rfl, hu⟩
    · cases hl

end Screens

/-- **A screen only shows its own message** in every run from the empty database in which HTML is
only delivered to the screen of a message with the uid it was rendered for, or to nobody. -/
theorem shows_own {s : Screens τ} {h : List (ScreenEvent τ)} {σ₀ : Option MCOIMAPSession}
    (hr : (screenSystem τ).RunWhere Screens.DeliversOwn (.init σ₀) h s) : ShowsOwn h := by
  induction hr with
  | nil => exact fun _ _ hm => nomatch hm
  | @snoc h s s' a o hr hC hs ih =>
    intro msg szHtml hm
    have hevents : storeEvents (h ++ [(a, o)]) = storeEvents h ++ o.events := by
      simp [storeEvents]
    rw [hevents]
    rw [loads, List.filterMap_append, List.mem_append] at hm
    rcases hm with hm | hm
    · obtain ⟨op, m, hm, hk, hu⟩ := ih msg szHtml hm
      exact ⟨op, m, hm.append _, hk, hu⟩
    · have hl : o.loaded = some (msg, szHtml) := by simpa using hm
      exact Screens.loaded_of_step (Screens.process_run hr) hC (screenStep_of_next hs) hl

theorem shows_own_five :
    ∃ h s, (screenSystem String).Run (.init (some (account "first"))) h s ∧
      h.map Prod.fst = [.openMsg .insertion (.imap (mail 5)), .store (.complete 0 (some "five"))] ∧
      (.imap (mail 5), "five") ∈ loads h ∧ ShowsOwn h :=
  (screenSystem String).exists_run_of_actions Screens.DeliversOwn _ _ (by decide)
    fun _ _ hr => shows_own hr

/-- A slow rendering is shown on the screen of the message opened after it. -/
theorem not_shows_own :
    ¬ ∀ (σ₀ : Option MCOIMAPSession) (h : List (ScreenEvent String)) (s : Screens String),
      (screenSystem String).Run (.init σ₀) h s → ShowsOwn h := by
  intro hall
  obtain ⟨h, s, hr, hl, hd⟩ := (screenSystem String).exists_run_of_exec (fun _ _ => True)
    (.init (some (account "first")))
    [.openMsg .insertion (.imap (mail 5)), .leave 0, .openMsg .insertion (.imap (mail 6)),
      .store (.complete 0 (some "five"))]
    (fun h _ => (.imap (mail 6), "five") ∈ loads h ∧
      ∀ d ∈ deliveries (storeEvents h), d.1.msg = .imap (mail 5))
    (by decide)
  obtain ⟨op, m, hm, -, hu⟩ := hall _ h s hr _ "five" hl
  cases hm.msg.symm.trans (hd _ hm.mem_deliveries)
  exact absurd hu (by decide)

end SecMail
