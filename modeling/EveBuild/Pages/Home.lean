import EveBuild.Pages.Escaping

/-!
# The dashboard and the settings

The handlers of `app/routes/health.py` and `show_settings` of `app/routes/settings.py`, which are
shown to the character that has logged in.

What the handlers fetch is given: the jobs of the character, and what the settings page is told of
the account and the corporation.  The times are what `secondsUntil` makes of them.
-/

namespace EveBuild.Pages

open Markup Text

/-! ## The dashboard -/

/-- `_render_login`. -/
def renderLogin : Text :=
  let body : Text := r#"
      <div class="login-wrap">
        <div class="card">
          <h1>eve-build</h1>
          <p class="tagline">
            Imports your EVE Online characters' blueprints, assets, and industry jobs, so you
            can see what's buildable, what it's worth, and what's in production.
          </p>
          <ul class="feature-list">
            <li>Blueprint material/time efficiency and buildable-run counts, on-site and
              across all assets</li>
            <li>Assets by category - minerals, ore, PI materials, datacores, decryptors -
              with volume and ISK value</li>
            <li>Live market pricing</li>
            <li>Industry job status and progress</li>
          </ul>
          <form method="get" action="/auth/login">
            <button class="btn btn-primary" type="submit">Log in with EVE Online</button>
          </form>
        </div>
      </div>
    "#
  renderPage "eve-build" body ["/static/health-login.css"] none

section Dashboard

variable (services : Services)

/-- `_job_row`, with the progress of the job and the seconds until it ends. -/
def jobRow (job : IndustryJobEntry) (progress secondsUntilEnd : ℚ) : Text :=
  let blueprintName := escape (data (services.typeName job.blueprintTypeId))
  let locationLabel := locationLabelHtml job.facilityId (services.locationInfo job.facilityId)
  let jobHref := escape (concat ["/jobs/", str job.jobId])
  let activityName := escape (match activityNames.lookup job.activityId with
    | some name => data name
    | none => concat ["Activity ", str job.activityId])
  let endDate := escape (data job.endDate)
  let jobIconUrl := escape (iconUrl job.blueprintTypeId false)
  concat [r#"
          <tr>
            <td>
              <a class="job-bp" href=""#, jobHref, r#"">
                <img class="icon" src=""#, jobIconUrl, r#"" alt=""#, blueprintName, r#""
                  onerror="this.style.visibility='hidden'">
                <span>"#, blueprintName, r#"</span>
              </a>
            </td>
            <td>"#, activityName, r#"</td>
            <td>"#, locationLabel, r#"</td>
            <td>"#, str job.runs, r#"</td>
            <td>"#, gaugeCellHtml progress none, r#"</td>
            <td title=""#, endDate, r#"">
              "#, humanizeRelativeTime secondsUntilEnd, r#"
            </td>
          </tr>
        "#]

/-- `_render_dashboard`. -/
def renderDashboard (character : CharacterDocument) (blueprintCount assetCount : ℕ)
    (activeJobs : List IndustryJobEntry) : Except PageError Text := do
  let rows ← activeJobs.mapM fun job => do
    let progress ← jobProgressPercentage services job
    match services.secondsUntil job.endDate with
    | some seconds => return jobRow services job progress seconds
    | none => throw .invalidTime
  let jobRows : Text := if rows.isEmpty then
      r#"<tr><td colspan="6" class="empty">No running industry jobs.</td></tr>"#
    else concat rows
  let body := concat [r#"<div class="page">
      <h1>Dashboard</h1>
      <div class="stat-grid">
        <a class="stat-card" href="/blueprints">
          <div class="figure">"#, str blueprintCount, r#"</div>
          <div class="label">Blueprints</div>
        </a>
        <a class="stat-card" href="/assets">
          <div class="figure">"#, str assetCount, r#"</div>
          <div class="label">Assets</div>
        </a>
        <div class="stat-card">
          <div class="figure">"#, str activeJobs.length, r#"</div>
          <div class="label">Running industry jobs</div>
        </div>
      </div>
      <h2>Industry jobs</h2>
      <table>
        <thead>
          <tr>
            <th>Blueprint</th><th>Activity</th><th>Location</th><th>Runs</th>
            <th>Progress</th><th>Ends</th>
          </tr>
        </thead>
        <tbody>"#, jobRows, r#"</tbody>
      </table>
    </div>"#]
  return renderPage "eve-build" body ["/static/health-dashboard.css"] (some character)

end Dashboard

/-- `read_root`. -/
def readRoot (site : Site) : Option CharacterDocument → Except PageError Text
  | none => return renderLogin
  | some character => renderDashboard site.services character site.blueprints.1.length
      site.assets.1.length (site.jobs.filter fun job => job.status = "active")

/-! ## The settings -/

/-- A `datetime`. -/
structure Timestamp where
  year : ℕ
  month : ℕ
  day : ℕ
  hour : ℕ
  minute : ℕ

def twoDigits (value : ℕ) : String := if value < 10 then "0" ++ value.repr else value.repr

/-- `_format_timestamp`, of a year with four digits. -/
def formatTimestamp (value : Timestamp) : String :=
  value.year.repr ++ "-" ++ twoDigits value.month ++ "-" ++ twoDigits value.day ++ " " ++
    twoDigits value.hour ++ ":" ++ twoDigits value.minute ++ " UTC"

structure CachedDataSource where
  label : String
  count : ℕ
  cachedAt : Option Timestamp
  shared : Bool

/-- A corporation whose data is connected, with the lengths of the lists that may be read. -/
structure Corporation where
  corporationId : ℤ
  corporationName : Option String
  assets : Option ℕ
  blueprints : Option ℕ
  industryJobs : Option ℕ

/-- What the settings show of a character. -/
structure Account where
  scopes : List String
  createdAt : Timestamp
  updatedAt : Timestamp
  /-- `data_summary`. -/
  sources : List CachedDataSource
  corporation : Option Corporation

/-- `_render_account_section`. -/
def renderAccountSection (character : CharacterDocument) (account : Account) : Text :=
  let avatarUrl := escape (concat ["https://images.evetech.net/characters/",
    str character.characterId, "/portrait?size=64"])
  let scopes := ", ".intercalate (sortedBy id account.scopes)
  let scopesText := escape (if scopes = "" then "none" else data scopes)
  concat [r#"
      <div class="card">
        <h2>Account</h2>
        <div class="header"
          style="display: flex; gap: 1rem; align-items: center; margin-bottom: 1rem;">
          <img src=""#, avatarUrl, r#"" alt=""#, escape (data character.characterName), r#""
            style="width: 48px; height: 48px; border-radius: 8px;">
          <div>
            <div style="font-weight: 600;">"#, escape (data character.characterName), r#"</div>
            <div style="color: #9aa4b2; font-size: 0.85rem;">
              Character ID "#, str character.characterId, r#"
            </div>
          </div>
        </div>
        <ul class="kv-list">
          <li><span>Login granted</span><dd>"#, formatTimestamp account.createdAt, r#"</dd></li>
          <li><span>Last refreshed</span><dd>"#, formatTimestamp account.updatedAt, r#"</dd></li>
          <li><span>Login scopes</span><dd class="scopes">"#, scopesText, r#"</dd></li>
        </ul>
      </div>
    "#]

/-- The body of `for source in sources`. -/
def sourceRow (source : CachedDataSource) : Text :=
  let lastUpdated := match source.cachedAt with
    | some cachedAt => formatTimestamp cachedAt
    | none => "never fetched yet"
  let sharedNote : Text := if source.shared then
      r#" <span class="status-shared">(shared with your corp)</span>"#
    else ""
  concat [r#"
          <li>
            <span>"#, escape (data source.label), sharedNote, r#"</span>
            <dd>"#, str source.count, " items &middot; ", lastUpdated, r#"</dd>
          </li>
        "#]

/-- `_render_data_section`. -/
def renderDataSection (sources : List CachedDataSource) : Text :=
  concat [r#"
      <div class="card">
        <h2>Data eve-build has stored</h2>
        <p>
          Cached copies of your assets, blueprints, and industry jobs (and your
          corporation's, if connected) so pages load quickly instead of hitting ESI
          every time. Refreshes automatically after an hour, or force it below.
        </p>
        <ul class="kv-list">"#, concat (sources.map sourceRow), r#"</ul>
        <div class="actions">
          <a class="btn btn-secondary" href="/settings/refresh">Force refresh</a>
        </div>
      </div>
    "#]

/-- `_CORP_STATUS_SOURCES`, with what each source has for a corporation. -/
def corpStatusSources (corporation : Corporation) : List (String × Option ℕ × String) :=
  [("Assets", corporation.assets, "requires the Director role"),
    ("Blueprints", corporation.blueprints, "requires the Director role"),
    ("Industry jobs", corporation.industryJobs, "requires the Director or Factory_Manager role")]

/-- The body of `for label, fetch, required_role in _CORP_STATUS_SOURCES`. -/
def statusRow (source : String × Option ℕ × String) : Text :=
  let statusHtml := match source.2.1 with
    | none => concat [r#"<span class="status-missing">No permission &mdash; "#,
        escape source.2.2, "</span>"]
    | some count => concat [r#"<span class="status-ok">Connected &middot; "#, str count,
        " found</span>"]
  concat ["<li><span>", escape source.1, "</span>", statusHtml, "</li>"]

/-- `_render_corp_section`. -/
def renderCorpSection : Option Corporation → Text
  | none => r#"
          <div class="card">
            <h2>Corporation data</h2>
            <p>
              Optionally pull your corporation's assets, blueprints, and industry jobs
              into eve-build alongside your personal ones, so materials and jobs sitting
              in corp hangars show up in readiness/buildable calculations too. Corp
              assets and blueprints require you to hold the Director role in your
              corporation; corp industry jobs allows Director or Factory_Manager.
            </p>
            <div class="actions">
              <a class="btn btn-primary" href="/auth/connect-corp">Connect corporation data</a>
            </div>
          </div>
        "#
  | some corporation =>
      let corpLabel := escape (match corporation.corporationName.filter (· ≠ "") with
        | some name => data name
        | none => concat ["Corporation ", str corporation.corporationId])
      let statusRows := concat ((corpStatusSources corporation).map statusRow)
      concat [r#"
      <div class="card">
        <h2>Corporation data</h2>
        <p>Connected to <strong>"#, corpLabel, r#"</strong>.</p>
        <ul class="status-list">"#, statusRows, r#"</ul>
        <div class="actions">
          <a class="btn btn-secondary" href="/auth/disconnect-corp">Disconnect</a>
        </div>
      </div>
    "#]

/-- `_render_danger_section`. -/
def renderDangerSection : Text := r#"
      <div class="card danger">
        <h2>Clear my data</h2>
        <p>
          Deletes everything eve-build has stored about you - cached assets,
          blueprints, and industry jobs, and your login/corp-connect tokens - and
          signs you out. eve-build immediately loses the ability to act on your
          behalf. This doesn't revoke eve-build's access on EVE Online's side; do
          that from your EVE Online account's third-party application settings if
          you want that too. Corp-shared data (visible to other connected
          characters in your corp) isn't affected.
        </p>
        <div class="actions">
          <a class="btn btn-secondary" href="/settings/clear-data"
            onclick="return confirm(
              'Delete all eve-build data for this character and sign out? This cannot be undone.'
            )">
            Clear my data
          </a>
        </div>
      </div>
    "#

/-- `show_settings`. -/
def showSettings (character : CharacterDocument) (account : Account) : Text :=
  let body := concat [r#"<div class="page">
      <h1>Settings</h1>
      "#, renderAccountSection character account, r#"
      "#, renderDataSection account.sources, r#"
      "#, renderCorpSection account.corporation, r#"
      "#, renderDangerSection, r#"
    </div>"#]
  renderPage "Settings" body ["/static/settings.css"] (some character)

end EveBuild.Pages
