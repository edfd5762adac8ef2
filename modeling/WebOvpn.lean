import WebOvpn.Backup.ManifestLaw
import WebOvpn.Backup.TreeLaw
import WebOvpn.Install.GoTimes
import WebOvpn.Install.SessionFiles
import WebOvpn.Install.SessionLaw
import WebOvpn.Inventory.Decisions
import WebOvpn.Inventory.EndpointLease
import WebOvpn.Inventory.ProjectionLaw
import WebOvpn.Inventory.RelationLaw
import WebOvpn.Inventory.Revisions
import WebOvpn.Inventory.SyncLaw
import WebOvpn.Jobs.Survival
import WebOvpn.Netctl.AttachmentLaw
import WebOvpn.Netctl.DeviceTags
import WebOvpn.Netctl.Findings
import WebOvpn.Netctl.FingerprintEngine
import WebOvpn.Netctl.FingerprintLaw
import WebOvpn.Netctl.HostProjectionLaw
import WebOvpn.Netctl.ImportLaw
import WebOvpn.Netctl.PathFactLaw
import WebOvpn.Netctl.PathFilterLaw
import WebOvpn.Netctl.PortRoleLaw
import WebOvpn.Netctl.RetentionLaw
import WebOvpn.Netctl.RouterApi
import WebOvpn.Netctl.SwitchRuns
import WebOvpn.Netctl.SwitchTelemetry
import WebOvpn.Netctl.Targets
import WebOvpn.Netctl.TopologyLaw
import WebOvpn.Netops.AnchorLaw
import WebOvpn.Netops.AuditLaw
import WebOvpn.Netops.Authorizable
import WebOvpn.Netops.Persistence
import WebOvpn.Netops.Undo
import WebOvpn.Panel.LedgerLaw
import WebOvpn.Resolver.Law
import WebOvpn.Setup.Closing
import WebOvpn.Snmp.EmptyFdb
import WebOvpn.Vnc.Law
import WebOvpn.Vpn.ClientFiles
import WebOvpn.Vpn.Management
import WebOvpn.Vpn.Resuming
import WebOvpn.Vpn.SiteRoutes
import WebOvpn.Vpn.Updates
import WebOvpn.Wallet.Law
import WebOvpn.Workflow.Law
import WebOvpn.Workstations.Reports
import WebOvpn.Setup.Once
