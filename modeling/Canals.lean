import Canals.Allocation.Absorption
import Canals.Allocation.Selection
import Canals.Allocation.Serial
import Canals.Geocoding.Eviction
import Canals.Geocoding.Failures
import Canals.Http.DeepRedactionSpec
import Canals.Http.ErrorFields
import Canals.Http.FaithfulCopy
import Canals.Http.MoneyFormat
import Canals.Idempotency.Confirmation
import Canals.Idempotency.Fingerprint
import Canals.Idempotency.Strictness
import Canals.Orders.Cursors
import Canals.Orders.DateFilters
import Canals.Orders.OrderNumber
import Canals.Orders.ProductLookup
import Canals.Orders.Settlers
import Canals.Payments.Retries
import Canals.Payments.Traffic
import Canals.Resilience.Probe
import Canals.System.Allotment
import Canals.System.Amounts
import Canals.System.Answers
import Canals.System.Backlog
import Canals.System.Cards
import Canals.System.ChargeTraffic
import Canals.System.Deadlock
import Canals.System.Delivery
import Canals.System.Expiry
import Canals.System.Failover
import Canals.System.History
import Canals.System.Ledger
import Canals.System.Listing
import Canals.System.Outcomes
import Canals.System.Reads
import Canals.System.Recovery
import Canals.System.Refusals
import Canals.System.SchemaIntegrity
import Canals.System.Shipments
import Canals.System.Storefront
