import EveBuild.BuildChain.Rounding
import EveBuild.BuildChain.Toggle
import EveBuild.BuildChain.Bulk
import EveBuild.BuildChain.Naive
import EveBuild.BuildChain.Order
import EveBuild.BuildChain.Flags
import EveBuild.BuildChain.Floats
import EveBuild.Market.Duplicates
import EveBuild.Auth.SingleUse
import EveBuild.Auth.Handshake
import EveBuild.Auth.Refresh
import EveBuild.Cache.Failures
import EveBuild.Cache.Sharing
import EveBuild.Cache.Sequential
import EveBuild.Cache.Overlap
import EveBuild.Cache.ForceRefresh
import EveBuild.Cache.Clearing
import EveBuild.Cache.Isolation
import EveBuild.Reference.Documents
import EveBuild.Reference.Names
import EveBuild.Planetary.Tiers
import EveBuild.Planets.Pins
import EveBuild.Assets.Pages
import EveBuild.Assets.Containers
import EveBuild.Startup.Replicas
import EveBuild.Startup.Joins
import EveBuild.Pages.Escaping
import EveBuild.Pages.Buildable
import EveBuild.Pages.Flow
import EveBuild.Pages.Query
import EveBuild.Startup.IndexConflicts
import EveBuild.Startup.IndexFiles
import EveBuild.Startup.IndexRepeats
import EveBuild.Startup.IndexForms
import EveBuild.Esi.Retries
import EveBuild.Esi.ErrorLimit
import EveBuild.Market.Coverage
import EveBuild.Market.Payloads
import EveBuild.Market.Prices
import EveBuild.Cache.Texts
import EveBuild.Pages.Links
import EveBuild.Pages.Browsing
import EveBuild.Startup.Lifespan
