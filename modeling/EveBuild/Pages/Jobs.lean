import EveBuild.Pages.Web

/-!
# The page of an industry job

The handler of `app/routes/jobs.py`, with the progress of `app/services/industry.py`.
-/

namespace EveBuild.Pages

open Markup Text

/-- The fields of `esi.IndustryJobEntry`. -/
structure IndustryJobEntry where
  jobId : ℤ
  activityId : ℤ
  blueprintId : ℤ
  blueprintTypeId : ℤ
  productTypeId : Option ℤ
  facilityId : ℤ
  runs : ℤ
  status : String
  startDate : String
  endDate : String

/-- `ACTIVITY_NAMES`. -/
def activityNames : List (ℤ × String) :=
  [(1, "Manufacturing"), (3, "Time Efficiency Research"), (4, "Material Efficiency Research"),
    (5, "Copying"), (8, "Invention"), (9, "Reaction")]

section Handlers

variable (services : Services) (methods : StringMethods) (character : Option CharacterDocument)

/-- `job_progress_percentage`. -/
def jobProgressPercentage (job : IndustryJobEntry) : Except PageError ℚ :=
  match services.secondsUntil job.startDate, services.secondsUntil job.endDate with
  | some untilStart, some untilEnd =>
      let totalSeconds := untilEnd - untilStart
      if totalSeconds ≤ 0 then return 100
      else return max 0 (min 100 (100 * -untilStart / totalSeconds))
  | _, _ => throw .invalidTime

/-- The page of a job that has progressed so far. -/
def jobPage (job : IndustryJobEntry) (progress : ℚ) : Text :=
  let blueprintName := escape (data (services.typeName job.blueprintTypeId))
  let locationLabel := locationLabelHtml job.facilityId (services.locationInfo job.facilityId)
  let activityName := escape (match activityNames.lookup job.activityId with
    | some name => data name
    | none => concat ["Activity ", str job.activityId])
  let statusLabel := escape (data (methods.capitalize job.status))
  let startDate := escape (data job.startDate)
  let endDate := escape (data job.endDate)
  let productRow : Text := match job.productTypeId with
    | none => ""
    | some productTypeId =>
        let productName := escape (data (services.typeName productTypeId))
        concat ["<dt>Product</dt><dd>", productName, "</dd>"]
  let jobIconUrl := escape (iconUrl job.blueprintTypeId false)
  let header := concat [r#"
      <div class="header">
        <img class="icon" src=""#, jobIconUrl, r#"" alt=""#, blueprintName, r#""
          onerror="this.style.visibility='hidden'">
        <div>
          <div class="name">"#, blueprintName, r#"</div>
          <div class="meta">"#, activityName, " &middot; ", statusLabel, r#"</div>
        </div>
      </div>
    "#]
  let blueprintHref := escape (concat ["/blueprints/", str job.blueprintId])
  let body := concat [r#"<div class="page">"#, header, r#"
      <div class="facts">
        <dl>
          <dt>Location</dt><dd>"#, locationLabel, r#"</dd>
          <dt>Runs</dt><dd>"#, str job.runs, r#"</dd>
          <dt>Progress</dt><dd>"#, gaugeCellHtml progress none, r#"</dd>
          <dt>Started</dt><dd>"#, startDate, r#"</dd>
          <dt>Ends</dt><dd>"#, endDate, r#"</dd>
          "#, productRow, r#"
        </dl>
      </div>
      <div class="actions">
        <a class="btn btn-secondary" href=""#, blueprintHref, r#"">
          View blueprint
        </a>
        <a class="btn btn-secondary" href="/">Back to dashboard</a>
      </div>
    </div>"#]
  renderPage (concat [blueprintName, " - eve-build"]) body ["/static/jobs-detail.css"] character

/-- `job_detail`. -/
def jobDetail (jobs : List IndustryJobEntry) (jobId : ℤ) : Except PageError Text :=
  match jobs.find? fun job => job.jobId = jobId with
  | none => throw (.notFound "Job not found")
  | some job =>
      match jobProgressPercentage services job with
      | .error error => throw error
      | .ok progress => return jobPage services methods character job progress

/-! ## Where the names are escaped -/

variable {services methods character}

theorem escapedOnce_jobPage_iff {job : IndustryJobEntry} {progress : ℚ} :
    (jobPage services methods character job progress).EscapedOnce ↔
      Plain (services.typeName job.blueprintTypeId) := by
  unfold jobPage
  refine escapedOnce_titledPage_iff ?_
  cases activityNames.lookup job.activityId <;> cases job.productTypeId <;> simp

/-- **The page of a job.**  The name of its blueprint is escaped once in the body, and twice in
the title. -/
theorem escapedOnce_jobDetail_iff {jobs : List IndustryJobEntry} {jobId : ℤ} {page : Text}
    (hpage : jobDetail services methods character jobs jobId = .ok page) :
    page.EscapedOnce ↔ ∀ job ∈ jobs.find? (fun job => job.jobId = jobId),
      Plain (services.typeName job.blueprintTypeId) := by
  unfold jobDetail at hpage
  split at hpage
  · cases hpage
  · rename_i job hfound
    rw [hfound]
    simp only [Option.mem_some_iff, forall_eq']
    split at hpage
    · cases hpage
    · obtain rfl := Except.ok.inj hpage
      exact escapedOnce_jobPage_iff

end Handlers

end EveBuild.Pages
